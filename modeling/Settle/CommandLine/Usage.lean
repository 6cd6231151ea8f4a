/-!
# How the program is used
-/

namespace Settle.CommandLine

/-- The commands with their operands and options. -/
def usage : String :=
  "cloudrecon: retry, classification and polling for cloud reconciliation\n\n" ++
  "Usage: cloudrecon <COMMAND>\n\n" ++
  "Commands:\n" ++
  "  classify <CODE> [--non-idempotent] [--mode read|write|delete|poll]\n" ++
  "            Show how a vendor error code is classified by the configured table\n" ++
  "  schedule [--profile read|write|poll] [--count N]\n" ++
  "            Print the nominal backoff schedule of a retry profile\n" ++
  "  simulate <PATH>\n" ++
  "            Run a JSON scenario against scripted endpoints with the configured policies\n" ++
  "  config    Show the config file location and effective settings\n" ++
  "  help      Print this message\n"

end Settle.CommandLine
