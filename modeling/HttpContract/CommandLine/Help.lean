/-!
# Help texts

What the commands tell about themselves.
-/

namespace HttpContract.CommandLine

/-- The short usage of the command. -/
def usage : String := "usage: declient [-h] \x7bgenerate\x7d ...\n"

def help : String := usage ++ "
Generate HTTP clients from annotated interfaces

positional arguments:
  \x7bgenerate\x7d
    generate  Generate client classes from annotated contracts

options:
  -h, --help  show this help message and exit
"

/-- The short usage of the generation. -/
def generateUsage : String := "usage: declient generate [-h] [--namespace NAMESPACE] [--out OUT]
                         [--sealed | --no-sealed] [--write | --no-write]
                         [--config CONFIG] [--verbose]
                         module:Contract [module:Contract ...]
"

def generateHelp : String := generateUsage ++ "
Validate annotated contracts and emit their HTTP client classes

positional arguments:
  module:Contract       Contract classes to generate clients for

options:
  -h, --help            show this help message and exit
  --namespace NAMESPACE
                        Module name for generated clients (default:
                        declient.generated)
  --out OUT, -o OUT     Directory for generated sources (default: ./declient-
                        generated)
  --sealed, --no-sealed
                        Decorate generated classes with typing.final
  --write, --no-write   Write generated sources to the output directory
  --config CONFIG       JSON or TOML config file (default: ./declient.toml if
                        present)
  --verbose, -v         Enable debug logging
"

end HttpContract.CommandLine
