/-!
# The command line

One option, which names the configuration file, and words that ask for help. Words are read from left to
right; the first request for help counts, and other words do nothing.
-/

namespace GameGateway

/-- What the program is asked to do. -/
inductive Command where
  | help
  /-- The option has no file behind it. -/
  | missingFile
  | serve (configPath : String)
  deriving DecidableEq, Repr

namespace Command

/-- The configuration file if none is named. -/
def standardPath : String := "conf/connection.yaml"

/-- The words that ask for help. -/
def helpWords : List String := ["--help", "--h", "--?", "/?"]

/-- What is asked for if the words name no other file than the given one. -/
def ofWords (configPath : String) : List String → Command
  | [] => .serve configPath
  | ["--conf"] => .missingFile
  | "--conf" :: path :: words => ofWords path words
  | word :: words => if helpWords.contains word then .help else ofWords configPath words

/-- The command of a command line. -/
def ofArgs (args : List String) : Command := ofWords standardPath args

/-- The answer to a request for help. -/
def usage : String := "Usage: connection_server [--conf FILE]"

/-- The answer to an option without its file. -/
def missingFileText : String := "Error: --conf requires a FILE argument"

/-- The report that a configuration could not be loaded. -/
def loadFailure (configPath cause : String) : String :=
  "Error: Cannot load config: " ++ configPath ++ "\n\nCaused by:\n    " ++ cause

end Command

end GameGateway
