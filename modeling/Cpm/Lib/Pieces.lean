import Mathlib.Data.List.Basic

/-! Lists that are walked through in pieces, where the first element of a piece tells how long the
piece is. -/
namespace Lib

inductive Reaches {α : Type} (piece goal : List α → Prop) : List α → Prop
  | here {list : List α} : goal list → Reaches piece goal list
  | behind {front rest : List α} : piece front → Reaches piece goal rest →
      Reaches piece goal (front ++ rest)

def Splits {α : Type} (piece : List α → Prop) : List α → Prop := Reaches piece (· = [])

/-- A piece is as long as its first element tells. -/
def Headed {α : Type} (announced : α → Nat) (piece : List α → Prop) : Prop :=
  ∀ front, piece front → ∃ head tail, front = head :: tail ∧ front.length = announced head

section
variable {α : Type} {announced : α → Nat} {piece other goal : List α → Prop} {front rest : List α}

theorem Headed.unique (headed : Headed announced piece) (headed' : Headed announced other)
    {front' rest' : List α} (first : piece front) (first' : other front')
    (same : front ++ rest = front' ++ rest') : front = front' ∧ rest = rest' := by
  obtain ⟨head, tail, rfl, length⟩ := headed front first
  obtain ⟨head', tail', rfl, length'⟩ := headed' front' first'
  obtain ⟨rfl, _⟩ := List.cons.inj same
  exact List.append_inj same (length.trans length'.symm)

namespace Reaches

/-- The first piece of a walk is the one that stands there. -/
theorem peel (headed : Headed announced piece) (headed' : Headed announced other)
    (first : piece front) (reaches : Reaches other goal (front ++ rest))
    (apart : ¬ goal (front ++ rest)) : other front ∧ Reaches other goal rest := by
  generalize whole : front ++ rest = list at reaches apart
  cases reaches with
  | here there => exact absurd there apart
  | behind first' reaches =>
    obtain ⟨rfl, rfl⟩ := headed.unique headed' first first' whole
    exact ⟨first', reaches⟩

theorem behind_iff (headed : Headed announced piece) (first : piece front)
    (apart : ¬ goal (front ++ rest)) :
    Reaches piece goal (front ++ rest) ↔ Reaches piece goal rest :=
  ⟨fun reaches => (reaches.peel headed headed first apart).2, .behind first⟩

/-- Where no piece stands and the goal is not met, there is no walk. -/
theorem stuck {list : List α} (none : ∀ front rest, list = front ++ rest → ¬ piece front)
    (apart : ¬ goal list) : ¬ Reaches piece goal list := by
  intro reaches
  cases reaches with
  | here there => exact apart there
  | behind first _ => exact none _ _ rfl first

end Reaches

namespace Splits

theorem mono (fits : ∀ front, piece front → other front) {list : List α} (splits : Splits piece list) :
    Splits other list := by
  induction splits with
  | here nothing => exact .here nothing
  | behind first _ ih => exact .behind (fits _ first) ih

theorem nonempty (headed : Headed announced piece) (first : piece front) : front ++ rest ≠ [] := by
  obtain ⟨head, tail, rfl, _⟩ := headed front first
  exact List.cons_ne_nil _ _

/-- Of two ways to split a list, both use the same pieces. -/
theorem both (headed : Headed announced piece) (headed' : Headed announced other) {list : List α} :
    Splits piece list ∧ Splits other list ↔ Splits (fun front => piece front ∧ other front) list := by
  constructor
  · rintro ⟨splits, splits'⟩
    induction splits with
    | here nothing => exact .here nothing
    | behind first _ ih =>
      obtain ⟨first', rest⟩ := splits'.peel headed headed' first (nonempty headed first)
      exact .behind ⟨first, first'⟩ (ih rest)
  · intro splits
    exact ⟨splits.mono fun _ both => both.1, splits.mono fun _ both => both.2⟩

end Splits

end

end Lib
