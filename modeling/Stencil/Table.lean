set_option autoImplicit false

/-!
# Tables

A table gives texts to some names, at most one to each.
-/

namespace Stencil

/-- A table of named texts. -/
structure Table where
  entries : List (String × String) := []
  deriving DecidableEq, Repr

namespace Table

/-- The text of a name. -/
def get? (t : Table) (name : String) : Option String := (t.entries.find? (·.1 == name)).map (·.2)

/-- The table without the name. -/
def erase (t : Table) (name : String) : Table := ⟨t.entries.filter (·.1 != name)⟩

/-- The table in which the name has the given text. -/
def insert (t : Table) (name value : String) : Table := ⟨(name, value) :: (t.erase name).entries⟩

@[simp] theorem get?_insert_self (t : Table) (name value : String) :
    (t.insert name value).get? name = some value := by
  simp [insert, get?]

@[simp] theorem get?_erase_self (t : Table) (name : String) : (t.erase name).get? name = none := by
  simp [erase, get?]

@[simp] theorem get?_erase_of_ne {name other : String} (h : other ≠ name) (t : Table) :
    (t.erase name).get? other = t.get? other := by
  obtain ⟨es⟩ := t
  induction es with
  | nil => rfl
  | cons e es ih =>
    simp only [erase, get?] at ih ⊢
    by_cases he : e.1 = name
    · have : ¬ e.1 = other := fun ho => h (ho ▸ he)
      simpa [he, this, Ne.symm h] using ih
    · by_cases ho : e.1 = other
      · simp [ho, h]
      · simpa [he, ho] using ih

theorem get?_insert_of_ne {name other : String} (h : other ≠ name) (t : Table) (value : String) :
    (t.insert name value).get? other = t.get? other := by
  rw [← get?_erase_of_ne h t]
  simp [insert, get?, Ne.symm h]

end Table

end Stencil
