import Duckgres.Base.Replace

/-!
# Quotes

A text between two quotes in which every quote is doubled, and its reading.
-/

namespace Duckgres.Base

variable {α : Type*} [DecidableEq α] (q : α)

def doubled (s : List α) : List α := replaceAll [q] [q, q] s

def quoted (s : List α) : List α := q :: (doubled q s ++ [q])

variable {q} {a : α} {s rest : List α}

@[simp] theorem doubled_nil : doubled q [] = [] := rfl

@[simp] theorem doubled_cons : doubled q (a :: s) = (if a = q then [q, q] else [a]) ++ doubled q s := by
  simp [doubled, replaceAll_singleton, List.flatMap_cons]

end Duckgres.Base
