/-
  ClusterAgent/Text/Blank.lean
  ============================
  **Blank characters and the ends of a text.**

  Messages of the cluster tool and terminal sizes typed by a person arrive with
  blanks around them.  *Blank* is the Unicode property `White_Space`; trimming
  removes the longest blank run at either end and nothing inside.
-/
namespace ClusterAgent.Text

def isBlank (c : Char) : Bool :=
  let n := c.toNat
  (0x09 ≤ n && n ≤ 0x0D) || n == 0x20 || n == 0x85 || n == 0xA0 || n == 0x1680 ||
    (0x2000 ≤ n && n ≤ 0x200A) || n == 0x2028 || n == 0x2029 || n == 0x202F ||
    n == 0x205F || n == 0x3000

def trimLeft (cs : List Char) : List Char :=
  cs.dropWhile isBlank

def trimRight (cs : List Char) : List Char :=
  (cs.reverse.dropWhile isBlank).reverse

def trim (cs : List Char) : List Char :=
  trimRight (trimLeft cs)

def trimmed (s : String) : String :=
  String.ofList (trim s.toList)

/-- Removes every leading copy of a nonempty `lead`. -/
def dropLeading (lead : List Char) : List Char → List Char
  | [] => []
  | c :: cs =>
    if lead ≠ [] ∧ lead.isPrefixOf (c :: cs) then dropLeading lead ((c :: cs).drop lead.length)
    else c :: cs
  termination_by cs => cs.length
  decreasing_by
    rename_i h
    have : 0 < lead.length := List.length_pos_iff.mpr h.1
    simp only [List.length_drop, List.length_cons]
    omega

/-- What follows `lead`, if the text starts with it. -/
def after? (lead cs : List Char) : Option (List Char) :=
  if lead.isPrefixOf cs then some (cs.drop lead.length) else none

/-- Whether `needle` occurs somewhere inside the text. -/
def occurs (needle : List Char) : List Char → Bool
  | [] => needle.isEmpty
  | c :: cs => needle.isPrefixOf (c :: cs) || occurs needle cs

/-- `s.mentions t` says that the text `t` occurs inside `s`. -/
def mentions (s t : String) : Bool :=
  occurs t.toList s.toList

end ClusterAgent.Text
