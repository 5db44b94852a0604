import ChainIndex.Settings

/-!
# The settings in effect

Reads the settings of a scanner from the environment and prints them, or says why they are refused.
-/

namespace ChainIndex

/-- The settings, one to a line. -/
def Settings.lines (s : Settings) : List String :=
  ["database " ++ s.databaseUrl, "node " ++ s.nodeEndpoint, "caller " ++ s.callerKey,
    "start " ++ (s.scanFrom.map toString).getD "after the checkpoint",
    "checkpoint every " ++ toString s.checkpointInterval ++ " blocks",
    "wait at the head " ++ toString s.headBackoff ++ " s"]

end ChainIndex

open ChainIndex in
/-- Prints the settings; a refusal ends with exit code 1. -/
def main : IO UInt32 := do
  let given ← Settings.variableNames.mapM fun name => return (name, ← IO.getEnv name)
  match Settings.ofVariables fun name => (given.lookup name).join with
  | .ok settings =>
    settings.lines.forM fun line => IO.println line
    return 0
  | .error fault =>
    IO.eprintln fault.message
    return 1
