import Duckgres.Base.Text

/-!
# Label of a control plane

The label that ties a pod to its control plane (`controlPlaneIDLabelValue`, controlplane/k8s_pool.go).
-/

namespace Duckgres.Pool
open Base

abbrev Digest := Vector UInt8 20

def labelRune (r : Char) : Char := if r.isAlphanum ∨ r ∈ ['-', '_', '.'] then r else '-'

def trimLeft (s : Text) : Text := s.dropWhile (!Char.isAlphanum ·)

def trimRight (s : Text) : Text := s.rdropWhile (!Char.isAlphanum ·)

def hexText (sum : List UInt8) : Text :=
  sum.flatMap fun b => [Nat.digitChar (b.toNat / 16), Nat.digitChar (b.toNat % 16)]

def controlPlaneIDLabelValue (sha1 : Text → Digest) (cpInstanceID : Text) : Text :=
  let sanitized := trimRight (trimLeft (cpInstanceID.map labelRune))
  let suffix := (hexText (sha1 cpInstanceID).toList).take 12
  if sanitized = [] then suffix
  else if sanitized.length ≤ 63 then sanitized
  else
    let front := trimRight (sanitized.take (max 1 (63 - suffix.length - 1)))
    if front = [] then suffix else front ++ '-' :: suffix

end Duckgres.Pool
