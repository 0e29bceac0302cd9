import Duckgres.Base.Quoting
import Duckgres.Transpile.Tree

/-!
# Search paths

`normalizeSearchPathSet` (transpiler/transform/setshow.go), and the syntax in which DuckDB reads a search path: entries
between commas, a catalog and a schema between dots, double quotes around what is taken as it is.
-/

namespace Duckgres.Transpile
open Base

end Duckgres.Transpile
