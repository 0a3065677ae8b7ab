import ShutterEase.Interleaving

/-!
Attempts of one client over a network that loses requests and replies. A request may be lost, or
applied with its reply lost, and the client may be gone at any call. What a program keeps it keeps
through every attempt.
-/
namespace Attempts
open Resumption Interleaving
variable {χ ρ ω ε α σ : Type}

/-- What becomes of one call. A lost reply leaves the service's change in place. -/
inductive Fate (ε : Type) where
  | answered
  | lost (e : ε)
  | unacknowledged (e : ε)

section Serving
variable (serve : χ → σ → Except ε (σ × ρ))

/-- What an attempt leaves in the store. Where the fates end, the client is gone. -/
def attempt : Prog χ ρ ω ε α → List (Fate ε) → σ → σ
  | .done _, _, s => s
  | .emit _ p, fates, s => attempt p fates s
  | .call _ _, [], s => s
  | .call c k, .answered :: fates, s =>
    match serve c s with
    | .ok (s', r) => attempt (k (.ok r)) fates s'
    | .error e => attempt (k (.error e)) fates s
  | .call _ k, .lost e :: fates, s => attempt (k (.error e)) fates s
  | .call c k, .unacknowledged e :: fates, s =>
    match serve c s with
    | .ok (s', _) => attempt (k (.error e)) fates s'
    | .error _ => attempt (k (.error e)) fates s

def attempts (p : Prog χ ρ ω ε α) (tries : List (List (Fate ε))) (s : σ) : σ :=
  tries.foldl (fun s fates => attempt serve p fates s) s

variable {serve} {Inv : σ → Prop} {p : Prog χ ρ ω ε α}

end Serving
end Attempts
