/-!
# Ordered dictionaries

A dictionary holds its entries with keys strictly ascending in code point order. The order
is part of the type: each entry carries the proof that its key lies above the one before,
so two dictionaries with the same values under the same keys are the same dictionary.
-/

namespace RecordQuery

/-- A key lies above a lower bound; without a bound every key does. -/
def Dict.Above : Option String → String → Prop
  | none, _ => True
  | some low, key => low < key

/-- Entries with ascending keys above a bound. -/
inductive Dict.Entries (α : Type) : Option String → Type where
  | nil {low : Option String} : Dict.Entries α low
  | cons {low : Option String} (key : String) (above : Dict.Above low key) (value : α)
      (rest : Dict.Entries α (some key)) : Dict.Entries α low

/-- A dictionary from strings. -/
abbrev Dict (α : Type) := Dict.Entries α none

namespace Dict

variable {α : Type} {low : Option String}

/-- The dictionary without entries. -/
def empty : Dict α := .nil

instance : EmptyCollection (Dict α) := ⟨empty⟩
instance : Inhabited (Dict α) := ⟨empty⟩

theorem above_some {low k : String} (h : low < k) : Above (some low) k := h

theorem above_trans {low : Option String} {k k' : String} (h : Above low k)
    (h' : Above (some k) k') : Above low k' := by
  cases low with
  | none => trivial
  | some l => exact above_some (String.lt_trans h h')

/-- A key that is neither below a key nor equal to it lies above it. -/
theorem above_of_not_lt {key k : String} (hlt : ¬ k < key) (hne : k ≠ key) :
    Above (some key) k :=
  above_some (Std.lt_of_le_of_ne (Std.not_lt.mp hlt) (Ne.symm hne))

namespace Entries

/-- The value under a key. -/
def get? : {low : Option String} → Entries α low → String → Option α
  | _, .nil, _ => none
  | _, .cons key _ value rest, k => if k = key then some value else get? rest k

/-- The entries with `value` under `key`, in place of any value it had. -/
def insert : {low : Option String} → Entries α low → (key : String) → Above low key → α →
    Entries α low
  | _, .nil, k, h, v => .cons k h v .nil
  | _, .cons key above value rest, k, h, v =>
    if hlt : k < key then .cons k h v (.cons key (above_some hlt) value rest)
    else if heq : k = key then .cons key above v rest
    else .cons key above value (insert rest k (above_of_not_lt hlt heq) v)

/-- The entries in key order. -/
def toList : {low : Option String} → Entries α low → List (String × α)
  | _, .nil => []
  | _, .cons key _ value rest => (key, value) :: toList rest

/-- The same entries under a lower bound. -/
def weaken {low low' : Option String} (h : ∀ k, Above low k → Above low' k) :
    Entries α low → Entries α low'
  | .nil => .nil
  | .cons key above value rest => .cons key (h key above) value rest

/-- The entries without a key. -/
def erase : {low : Option String} → Entries α low → String → Entries α low
  | _, .nil, _ => .nil
  | _, .cons key above value rest, k =>
    if k = key then rest.weaken fun _ h => above_trans above h
    else .cons key above value (erase rest k)

end Entries

/-- The dictionary with `value` under `key`, in place of any value it had. -/
def insert (d : Dict α) (key : String) (value : α) : Dict α :=
  Entries.insert d key trivial value

/-- The entries in key order. -/
def toList (d : Dict α) : List (String × α) := Entries.toList d

/-- The keys, ascending. -/
def keys (d : Dict α) : List String := d.toList.map (·.1)

/-- The dictionary of a list of entries; a later entry replaces an earlier one of its key. -/
def ofList (entries : List (String × α)) : Dict α :=
  entries.foldl (fun d e => d.insert e.1 e.2) empty

end Dict

end RecordQuery
