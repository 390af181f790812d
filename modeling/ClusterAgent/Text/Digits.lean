/-
  ClusterAgent/Text/Digits.lean
  =============================
  **Digits in a base up to sixteen.**

  Letters of either case count on from nine.
-/
namespace ClusterAgent.Text

/-- The value of a digit in a base up to sixteen. -/
def digit? (base : Nat) (c : Char) : Option Nat :=
  let d :=
    if c.isDigit then c.toNat - 48
    else if 'a' ≤ c ∧ c ≤ 'f' then c.toNat - 87
    else if 'A' ≤ c ∧ c ≤ 'F' then c.toNat - 55
    else base
  if d < base then some d else none

def digits? (base : Nat) (cs : List Char) : Option Nat :=
  if cs = [] then none else cs.foldlM (fun n c => (digit? base c).map (n * base + ·)) 0

end ClusterAgent.Text
