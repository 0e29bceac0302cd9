import Duckgres.Proxy.Handle

namespace Duckgres.Proof.Proxy
open Base Duckgres.Proxy List

variable {object : Bytes} {range : Text} {answer resp : Response} {p q : CacheProxy} {h next : Handler}

def slice (object : Bytes) (first last : Nat) : Bytes := (object.drop first).take (last + 1 - first)

def Holds (answer : Response) (data : Bytes) : Prop := answer.status < 400 ∧ data = answer.body

end Duckgres.Proof.Proxy
