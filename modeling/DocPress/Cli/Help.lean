import DocPress.Cli.Session

/-!
# Help

What the program says about itself, and about a command line or a file that it
cannot work with.
-/

namespace DocPress.Cli

/-- Help about the program. -/
def programHelp : List String :=
  ["Usage: docsmith [OPTIONS] COMMAND [ARGS]...",
    "",
    "  API documentation generator for Java and Python sources",
    "",
    "Options:",
    "  -c, --config FILE  Path to configuration file",
    "  -v, --verbose      Enable verbose output with timestamps",
    "  -q, --quiet        Suppress info messages (warnings and errors only)",
    "  --ci               Enable CI mode with JSON output",
    "  --version          Show version and exit",
    "  --help             Show this message and exit",
    "",
    "Commands:",
    "  generate  Generate documentation for a source file, directory or zip archive",
    "  formats   List the source languages and output formats",
    "  init      Initialize the configuration"]

/-- Help about a command. -/
def CommandName.help : CommandName → List String
  | generate =>
      ["Usage: docsmith generate [OPTIONS] SOURCE",
        "",
        "  Generate documentation for a source file, directory or zip archive",
        "",
        "Options:",
        "  -f, --format TEXT  Output format: xml, html, pdf (overrides config)",
        "  -o, --output PATH  Output file (xml, pdf) or base directory (html)",
        "  --name TEXT        Project name shown in the documentation",
        "  --help             Show this message and exit"]
  | formats =>
      ["Usage: docsmith formats [OPTIONS]",
        "",
        "  List the source languages and output formats",
        "",
        "Options:",
        "  --json  Output results as JSON",
        "  --help  Show this message and exit"]
  | init =>
      ["Usage: docsmith init [OPTIONS]",
        "",
        "  Initialize the configuration",
        "",
        "Options:",
        "  --force  Overwrite existing config",
        "  --help   Show this message and exit"]

/-- The words about a crash. -/
def Crash.message : Crash → Text
  | archive _ => "The archive is damaged.".toList
  | pattern v => "A pattern must be a text, not ".toList ++ v.shown ++ ['.']
  | stylesheet v => "The stylesheet must be a path, not ".toList ++ v.shown ++ ['.']
  | .unprintable .tooLong => "An integer has too many digits.".toList
  | .unprintable .tooDeep => "A value is nested too deeply.".toList

namespace Ending

/-- What an ending adds to the output. -/
def output : Ending → Text
  | helped about 0 => Text.join ['\n'] ((lines about).map String.toList) ++ ['\n']
  | _ => []
where
  /-- The help that is asked for. -/
  lines : Option CommandName → List String
    | some name => name.help
    | none => programHelp

/-- What an ending adds to the reports. -/
def reports : Ending → Text
  | misused e => "Error: ".toList ++ e.message ++ ['\n']
  | crashed c => "Error: ".toList ++ c.message ++ ['\n']
  | helped _ (_ + 1) => Text.join ['\n'] (programHelp.map String.toList) ++ ['\n']
  | _ => []

end Ending
end DocPress.Cli
