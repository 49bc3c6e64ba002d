import SeoAudit.Text.Basic

/-! Tables with text keys. Entries stay in the order in which their keys first
came, and each key has one value. `Table.keys_update` states that order. -/
namespace SeoAudit

abbrev Table (α : Type) := List (Text × α)

namespace Table
variable {α : Type}

def get? (key : Text) (t : Table α) : Option α := t.lookup key

def contains (key : Text) (t : Table α) : Bool := (get? key t).isSome

def keys (t : Table α) : List Text := t.map (·.1)

def values (t : Table α) : List α := t.map (·.2)

/-- Sets the value of a key to `f` of the value it had: in place if the key is
there, at the end if not. -/
def update (key : Text) (f : Option α → α) : Table α → Table α
  | [] => [(key, f none)]
  | (k, v) :: rest => if k = key then (k, f (some v)) :: rest else (k, v) :: update key f rest

def insert (key : Text) (value : α) (t : Table α) : Table α := update key (fun _ => value) t

def ofList (pairs : List (Text × α)) : Table α :=
  pairs.foldl (fun t (key, value) => insert key value t) []

theorem keys_update (key : Text) (f : Option α → α) (t : Table α) :
    keys (update key f t) = if key ∈ keys t then keys t else keys t ++ [key] := by
  induction t with
  | nil => simp [update, keys]
  | cons entry rest ih =>
    obtain ⟨k, v⟩ := entry
    simp only [keys] at ih
    by_cases h : k = key
    · simp [update, keys, h]
    · by_cases present : key ∈ rest.map (·.1) <;> simp_all [update, keys, eq_comm]

theorem get?_update_self (key : Text) (f : Option α → α) (t : Table α) :
    get? key (update key f t) = some (f (get? key t)) := by
  induction t with
  | nil => simp [update, get?]
  | cons entry rest ih =>
    obtain ⟨k, v⟩ := entry
    by_cases h : k = key
    · simp [update, get?, h]
    · have h' : (key == k) = false := by simp [Ne.symm h]
      simpa [update, get?, h, List.lookup_cons, h'] using ih

end Table
end SeoAudit
