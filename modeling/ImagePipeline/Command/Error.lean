import ImagePipeline.Command.Basic

/-! How a command can fail. -/
namespace ImagePipeline

inductive CommandError where
  | notFound (program : String)
  | permissionDenied (program : String)
  | nonZeroExit (line : String) (code : Int)
  | terminated (line : String)
  | timedOut (line : String) (limit : Duration)
  | io (line : String) (source : String)
  deriving DecidableEq, Repr

namespace CommandError

def message : CommandError → String
  | notFound program =>
    "the `" ++ program ++
      "` command is required but not available on your system, please install it"
  | permissionDenied program =>
    "the `" ++ program ++ "` command is available but does not have the right permissions, " ++
      "please make sure the binary is executable"
  | nonZeroExit line code =>
    "`" ++ line ++ "` exited with non-zero exit code `" ++ toString code ++ "`"
  | terminated line => "`" ++ line ++ "` was terminated by a signal"
  | timedOut line limit => "`" ++ line ++ "` did not finish within " ++ limit.display
  | io line source => "failed to run `" ++ line ++ "`: " ++ source

def isTimeout : CommandError → Bool
  | timedOut _ _ => true
  | _ => false

end CommandError

end ImagePipeline
