/-!
# The usage text
-/

namespace ClassTidy.Command

/-- The first form of the command line: laying classes out. -/
def formatUsage : String :=
  " ".intercalate ["classwrap-cli [format] --config <path> [--print-width <n>]",
    "[--grouping separate|separate-categorized|inline] [--uncategorized before|after]",
    "[--width-measure chars|display] [--parsed] [--json] [<path>|-]"]

/-- The second form of the command line: listing buckets. -/
def groupUsage : String :=
  "classwrap-cli group --config <path> [--parsed] [<path>|-]"

/-- What the usage text says below the forms of the command line. -/
def usageNotes : List String :=
  [ "- If <path> is omitted or '-', input is read from stdin.",
    "- Input is a whitespace-separated class attribute; classes prefixed with a configured",
    "viewport (`md:hidden`) are treated as that viewport's classes.",
    "- --parsed reads `\x7b\"baseClasses\": [...], \"viewportClasses\": \x7b...\x7d\x7d` JSON "
      ++ "instead.",
    "- format prints one line per output line; --json prints a JSON array.",
    "- group prints the category buckets of the base and viewport classes as JSON.",
    "- Command-line options override the config file.",
    "- Set CLASSWRAP_LOG (e.g. `debug`) to enable diagnostics on stderr." ]

/-- What is printed when a command line is not understood. -/
def usage : String :=
  String.join <| (["classwrap-cli", "", "USAGE:", formatUsage, groupUsage, "", "NOTES:"]
    ++ usageNotes).map (· ++ "\n")

end ClassTidy.Command
