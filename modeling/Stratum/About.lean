import Stratum.Directories
import Stratum.Document

/-!
# About the library

What the library says about itself.
-/

namespace Stratum.About

/-- The version. -/
def version : String := "0.1.0"

/-- The name of the licence. -/
def license : String := "Apache-2.0"

/-- One line on what the library is for. -/
def description : String := "Layered configuration lookup with daily caching"

/-- The names under which the library offers its parts, in the order of their code points. -/
def exports : List String := [
  "CONFIG_EXTENSIONS", "Config", "ConfigError", "ExtensionResolver", "FileConfig",
  "LayeredConfError", "MalformedContentError", "NoOverlay", "OverlayProvider", "SourceLocator",
  "StaticOverlay", "ValueCache", "__description__", "__license__", "__version__",
  "convert_stream_to_string", "convert_string_to_stream", "create_config", "register_config"]

end Stratum.About
