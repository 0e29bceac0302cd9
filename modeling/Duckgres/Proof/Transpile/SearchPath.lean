import Duckgres.Transpile.SearchPath

namespace Duckgres.Proof.Transpile
open Base Duckgres.Transpile List

variable {s text name : Text} {es : List (List Text)} {names : List Text} {c d : Char}

end Duckgres.Proof.Transpile
