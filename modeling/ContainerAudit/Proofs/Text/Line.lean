import ContainerAudit.Proofs.Path.Shortest
import ContainerAudit.Text.Digits

/-!
# Texts that stay on their line

A text that holds no line feed can be put into a line of output.  Texts that are put together from
such texts, numbers and paths in their canonical spelling are such texts again.

## Key results

- `oneLine_append`, `oneLine_intercalate`: a text stays on its line exactly if its parts do
- `oneLine_repr`, `oneLine_octal`: so does every number
- `oneLine_canonical`: the canonical spelling of a path adds no line feed
-/

namespace ContainerAudit.Text

/-- A text without a line feed. -/
def OneLine (text : String) : Prop := '\n' ∉ text.toList

instance (text : String) : Decidable (OneLine text) :=
  inferInstanceAs (Decidable ('\n' ∉ text.toList))

@[simp] theorem oneLine_empty : OneLine "" := by decide

@[simp] theorem oneLine_append {a b : String} : OneLine (a ++ b) ↔ OneLine a ∧ OneLine b := by
  simp [OneLine]

@[simp] theorem oneLine_toString {text : String} : OneLine (toString text) ↔ OneLine text := .rfl

/-- A joined text stays on its line exactly if all its parts do. -/
theorem oneLine_intercalate {separator : String} (h : OneLine separator) {texts : List String} :
    OneLine (separator.intercalate texts) ↔ ∀ text ∈ texts, OneLine text := by
  induction texts with
  | nil => simp
  | cons first rest ih =>
    cases rest with
    | nil => simp
    | cons second rest =>
      rw [String.intercalate_cons_cons, oneLine_append, oneLine_append, ih]
      simp [h]

/-! ## Numbers -/

/-- No decimal or octal digit is a line feed. -/
private theorem oneLine_ofList_toDigits {base : Nat} (hpos : 0 < base) (hbase : base ≤ 10)
    (n : Nat) :
    OneLine (String.ofList (Nat.toDigits base n)) := by
  intro h
  rw [String.toList_ofList] at h
  exact absurd (Nat.isDigit_of_mem_toDigits hpos hbase h) (by decide)

@[simp] theorem oneLine_repr (n : Nat) : OneLine n.repr :=
  oneLine_ofList_toDigits (by decide) (by decide) n

@[simp] theorem oneLine_octal (n : Nat) : OneLine (octal n) :=
  oneLine_ofList_toDigits (by decide) (by decide) n

@[simp] theorem oneLine_repr_int (n : Int) : OneLine n.repr := by
  rw [Int.repr_eq_if]
  split <;> simp +decide

@[simp] theorem oneLine_toString_uint32 (n : UInt32) : OneLine (toString n) :=
  oneLine_repr n.toNat

@[simp] theorem oneLine_toString_uint64 (n : UInt64) : OneLine (toString n) :=
  oneLine_repr n.toNat

@[simp] theorem oneLine_toString_bool (b : Bool) : OneLine (toString b) := by
  cases b <;> decide

/-! ## Paths -/

open ContainerAudit.Path (canonical canonical_sublist)

/-- The canonical spelling of a path has no characters that the path does not have, apart from the
    dot that the empty path is spelled as. -/
theorem oneLine_canonical {path : String} (h : OneLine path) : OneLine (canonical path) := by
  by_cases hne : path = ""
  · subst hne
    decide +kernel
  · exact fun hmem => h ((canonical_sublist hne).mem hmem)

end ContainerAudit.Text
