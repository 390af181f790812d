/-
  ClusterAgent/Registry.lean
  ==========================
  **Handlers by resource and action.**

  The registry is built once and then only read.  Registering a pair again
  replaces its handler; a pair that was never registered is simply absent.
-/
namespace ClusterAgent

/-- Handlers of type `η`, each under a resource and an action. -/
structure Registry (η : Type u) where
  entries : List ((String × String) × η)

namespace Registry

variable {η : Type u}

def empty : Registry η := ⟨[]⟩

/-- Puts a handler under a pair, in place of an earlier one. -/
def put (pair : String × String) (handler : η) :
    List ((String × String) × η) → List ((String × String) × η)
  | [] => [(pair, handler)]
  | (p, h) :: rest => if p = pair then (pair, handler) :: rest else (p, h) :: put pair handler rest

def register (r : Registry η) (resource action : String) (handler : η) : Registry η :=
  ⟨put (resource, action) handler r.entries⟩

def lookup (r : Registry η) (resource action : String) : Option η :=
  (r.entries.find? (·.1 = (resource, action))).map (·.2)

def distinct : List String → List String
  | [] => []
  | s :: rest => s :: (distinct rest).filter (· ≠ s)

def resources (r : Registry η) : List String :=
  (distinct (r.entries.map (·.1.1))).mergeSort (fun a b => decide (a ≤ b))

def actions (r : Registry η) (resource : String) : List String :=
  ((r.entries.filter (·.1.1 = resource)).map (·.1.2)).mergeSort (fun a b => decide (a ≤ b))

end Registry

end ClusterAgent
