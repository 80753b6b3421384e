import MdxCheck.Text.Basic

/-!
What is printed about the command itself.
-/

namespace MdxCheck.CommandLine

def commandName : Text := "verify-mdx"

def ofLines (lines : List String) : Text :=
  lines.flatMap fun line => line.toList ++ ['\n']

def usage : Text :=
  ofLines
    [ "usage: verify-mdx [-h] [--config CONFIG] [--skip-images] [--jobs JOBS] [-v]",
      "                  [paths ...]" ]

def helpText : Text :=
  usage ++ ofLines
    [ "",
      "Verify MDX documentation: component structure, frontmatter and image imports",
      "",
      "positional arguments:",
      "  paths            Documents or directories to verify (default: current",
      "                   directory)",
      "",
      "options:",
      "  -h, --help       show this help message and exit",
      "  --config CONFIG  YAML configuration file (default: .verify-mdx.yml if",
      "                   present)",
      "  --skip-images    Do not check image imports",
      "  --jobs JOBS      Number of documents to verify in parallel",
      "  -v, --verbose    Show debug logging",
      "",
      "Examples:",
      "  verify-mdx src/content/docs",
      "  verify-mdx --skip-images --jobs 8 src/content",
      "  verify-mdx --config .verify-mdx.yml src/content/docs/apm/setup.mdx",
      "        " ]

def usageError (message : Text) : Text :=
  usage ++ commandName ++ ": error: " ++ message ++ ['\n']

end MdxCheck.CommandLine
