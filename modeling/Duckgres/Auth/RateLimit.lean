import Mathlib.Logic.Function.Basic
import Mathlib.Data.List.Basic

/-!
# Rate limiting

`RateLimiter` (server/auth/ratelimit.go), for addresses that resolve. A step is one method under `mu` at the time it
reads; times count from Go's zero time, and `format` writes a duration rounded to seconds.
-/

namespace Duckgres.Auth

structure RateLimitConfig where
  maxFailedAttempts : Int
  failedAttemptWindow : Int
  banDuration : Int
  maxConnectionsPerIP : Int
  maxConnections : Int
  format : Int → String

structure IpRecord where
  failedAttempts : List Nat := []
  bannedUntil : Int := 0
  activeConns : Int := 0

structure RateLimiter (ι : Type*) where
  records : ι → Option IpRecord := fun _ => none
  totalActiveConns : Int := 0

inductive Event (ι : Type*) where
  -- the time left of a ban is read from the clock once more
  | checkConnection (ip : ι) (again : Nat)
  | registerConnection (ip : ι)
  | unregisterConnection (ip : ι)
  | recordFailedAuth (ip : ι)
  | recordSuccessfulAuth (ip : ι)
  | isBanned (ip : ι)
  | cleanup

inductive Answer where
  | message (text : String)
  | bool (answer : Bool)
  deriving DecidableEq

def countAfter (start : Int) (times : List Nat) : Nat := times.countP fun t : Nat => start < t

def IpRecord.isBanned (now : Nat) (r : IpRecord) : Bool := r.bannedUntil ≠ 0 && now < r.bannedUntil

def IpRecord.unregister (r : IpRecord) : IpRecord := { r with activeConns := max (r.activeConns - 1) 0 }

def IpRecord.clear (r : IpRecord) : IpRecord := { r with failedAttempts := [], bannedUntil := 0 }

section
variable (cfg : RateLimitConfig) (now : Nat)

def IpRecord.fail (r : IpRecord) : IpRecord × Bool :=
  let attempts := r.failedAttempts ++ [now]
  if cfg.maxFailedAttempts ≤ countAfter (now - cfg.failedAttemptWindow) attempts then
    ({ r with failedAttempts := attempts, bannedUntil := now + cfg.banDuration }, true)
  else ({ r with failedAttempts := attempts }, false)

def IpRecord.expire (r : IpRecord) : IpRecord where
  failedAttempts := r.failedAttempts.filter fun t : Nat => now - cfg.failedAttemptWindow < t
  bannedUntil := if r.bannedUntil ≠ 0 ∧ r.bannedUntil < now then 0 else r.bannedUntil
  activeConns := r.activeConns

def IpRecord.isEmpty (r : IpRecord) : Bool := r.failedAttempts.isEmpty && r.bannedUntil = 0 && r.activeConns = 0

inductive Verdict where
  | full | banned | busy | free

namespace RateLimiter
variable {ι : Type*} [DecidableEq ι] (ip : ι) (s : RateLimiter ι)

def record : IpRecord := (s.records ip).getD {}

def set (r : Option IpRecord) (total : Int) : RateLimiter ι := ⟨Function.update s.records ip r, total⟩

def getOrCreateRecord : RateLimiter ι := s.set ip (s.record ip) s.totalActiveConns

def verdict : Verdict :=
  if 0 < cfg.maxConnections ∧ cfg.maxConnections ≤ s.totalActiveConns then .full
  else if (s.record ip).isBanned now then .banned
  else if 0 < cfg.maxConnectionsPerIP ∧ cfg.maxConnectionsPerIP ≤ (s.record ip).activeConns then .busy
  else .free

def checkConnection (again : Nat) : RateLimiter ι × String :=
  match s.verdict cfg now ip with
  | .full => (s, "too many concurrent connections")
  | .banned => (s.getOrCreateRecord ip,
      "too many failed authentication attempts, try again in " ++ cfg.format ((s.record ip).bannedUntil - again))
  | .busy => (s.getOrCreateRecord ip, "too many connections from your IP address")
  | .free => (s.getOrCreateRecord ip, "")

def registerConnection : RateLimiter ι × Bool :=
  match s.verdict cfg now ip with
  | .full => (s, false)
  | .banned | .busy => (s.getOrCreateRecord ip, false)
  | .free =>
    let r := s.record ip
    (s.set ip (some { r with activeConns := r.activeConns + 1 }) (s.totalActiveConns + 1), true)

def next : Event ι → RateLimiter ι × Option Answer
  | .checkConnection ip again => ((s.checkConnection cfg now ip again).1,
      some (.message (s.checkConnection cfg now ip again).2))
  | .registerConnection ip => ((s.registerConnection cfg now ip).1, some (.bool (s.registerConnection cfg now ip).2))
  | .unregisterConnection ip => (s.set ip ((s.records ip).map .unregister) (max (s.totalActiveConns - 1) 0), none)
  | .recordFailedAuth ip =>
    (s.set ip (some ((s.record ip).fail cfg now).1) s.totalActiveConns, some (.bool ((s.record ip).fail cfg now).2))
  | .recordSuccessfulAuth ip => (s.set ip ((s.records ip).map .clear) s.totalActiveConns, none)
  | .isBanned ip => (s, some (.bool ((s.records ip).any (IpRecord.isBanned now))))
  | .cleanup =>
    let sweep (r : IpRecord) := if (r.expire cfg now).isEmpty then none else some (r.expire cfg now)
    ({ s with records := fun ip => (s.records ip).bind sweep }, none)

end RateLimiter
end
end Duckgres.Auth
