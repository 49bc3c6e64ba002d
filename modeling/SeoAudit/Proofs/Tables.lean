import Mathlib.Data.List.Induction
import Mathlib.Data.List.Nodup
import SeoAudit.Table

/-! Looking up in tables. Where the keys of a table stand once, its entries are what is looked up;
a table made from pairs is one of those, and has the pairs themselves when their keys
stand once already. A table whose keys are chosen from names in their order is known from what
is looked up under these. A table that groups items by name has the names as they first come, and
under each of them what its own items make. -/
namespace SeoAudit

theorem eraseDups_concat {α : Type} [BEq α] [LawfulBEq α] (l : List α) (a : α)
    [Decidable (a ∈ l)] :
    (l ++ [a]).eraseDups = if a ∈ l then l.eraseDups else l.eraseDups ++ [a] := by
  rw [List.eraseDups_append]
  split_ifs with listed
  · simp [List.removeAll, listed]
  · simp [List.removeAll, listed, List.eraseDups_cons]

theorem pairwise_idxOf_eraseDups (l : List Text) :
    l.eraseDups.Pairwise fun a b => l.idxOf a < l.idxOf b := by
  induction l using List.reverseRecOn with
  | nil => exact List.Pairwise.nil
  | append_singleton l a ih =>
    have before : l.eraseDups.Pairwise fun b c => (l ++ [a]).idxOf b < (l ++ [a]).idxOf c := by
      refine ih.imp_of_mem fun hb hc less => ?_
      rwa [List.idxOf_append_of_mem (List.mem_eraseDups.mp hb),
        List.idxOf_append_of_mem (List.mem_eraseDups.mp hc)]
    rw [eraseDups_concat]
    split_ifs with listed
    · exact before
    · refine List.pairwise_append.mpr ⟨before, List.pairwise_singleton _ a,
        fun b hb c hc => ?_⟩
      rw [List.mem_singleton.mp hc, List.idxOf_append_of_mem (List.mem_eraseDups.mp hb),
        List.idxOf_append_of_notMem listed]
      exact Nat.lt_of_lt_of_le (List.idxOf_lt_length_of_mem (List.mem_eraseDups.mp hb))
        (Nat.le_add_right _ _)

theorem filter_contains_of_sublist {l names : List Text} (chosen : l.Sublist names)
    (distinct : names.Nodup) :
    names.filter (l.contains ·) = l := by
  induction chosen with
  | slnil => rfl
  | cons name chosen ih =>
    obtain ⟨new, distinct⟩ := List.nodup_cons.mp distinct
    rw [List.filter_cons_of_neg, ih distinct]
    simpa using mt (chosen.mem ·) new
  | cons_cons name chosen ih =>
    obtain ⟨new, distinct⟩ := List.nodup_cons.mp distinct
    rw [List.filter_cons_of_pos (by simp)]
    congr 1
    refine (List.filter_congr fun other member => ?_).trans (ih distinct)
    have differs : other ≠ name := fun same => new (same ▸ member)
    simp [differs]

theorem map_filterMap_sublist {α β γ : Type} {f : α → Option β} {g : β → γ}
    {h : α → γ} (named : ∀ a b, f a = some b → g b = h a) (l : List α) :
    ((l.filterMap f).map g).Sublist (l.map h) := by
  induction l with
  | nil => exact List.Sublist.refl _
  | cons a l ih =>
    cases found : f a with
    | none =>
      rw [List.filterMap_cons_none found]
      exact ih.cons (h a)
    | some b =>
      rw [List.filterMap_cons_some found, List.map_cons, named a b found]
      exact ih.cons_cons (h a)

namespace Table
variable {α : Type} {key other : Text} {value : α} {t pairs : Table α}

theorem contains_iff (key : Text) (t : Table α) : contains key t ↔ key ∈ keys t := by
  rw [contains, get?, List.lookup_isSome_iff, keys, List.mem_map]
  constructor
  · rintro ⟨entry, member, same⟩
    exact ⟨entry, member, (eq_of_beq same).symm⟩
  · rintro ⟨entry, member, rfl⟩
    exact ⟨entry, member, beq_self_eq_true entry.1⟩

theorem mem_values_of_get? (found : get? key t = some value) :
    value ∈ values t := by
  obtain ⟨before, after, entries, -⟩ := List.lookup_eq_some_iff.mp found
  simp [values, entries]

theorem get?_update_of_ne (ne : other ≠ key) (f : Option α → α) (t : Table α) :
    get? other (update key f t) = get? other t := by
  have absent : (other == key) = false := beq_eq_false_iff_ne.mpr ne
  induction t with
  | nil => simp [update, get?, ne]
  | cons entry rest ih =>
    obtain ⟨k, v⟩ := entry
    by_cases same : k = key
    · simp [update, get?, same, List.lookup_cons, absent]
    · simp only [get?] at ih
      simp [update, get?, same, List.lookup_cons, ih]

theorem nodup_keys_update (distinct : (keys t).Nodup) (f : Option α → α) :
    (keys (update key f t)).Nodup := by
  rw [keys_update]
  split_ifs with listed
  · exact distinct
  · exact distinct.append (List.nodup_singleton key) (List.disjoint_singleton.mpr listed)

theorem mem_iff_get? (distinct : (keys t).Nodup) :
    (key, value) ∈ t ↔ get? key t = some value := by
  induction t with
  | nil => simp [get?]
  | cons entry rest ih =>
    obtain ⟨k, v⟩ := entry
    obtain ⟨new, others⟩ := List.nodup_cons.mp distinct
    rw [List.mem_cons, ih others]
    by_cases same : key = k
    · subst same
      have later : rest.lookup key ≠ some value := fun found =>
        new (List.mem_map.mpr ⟨(key, value), (ih others).mpr found, rfl⟩)
      simp [get?, later, eq_comm]
    · have absent : (key == k) = false := beq_eq_false_iff_ne.mpr same
      simp [get?, List.lookup_cons, same, absent]

theorem getElem?_update {n : Nat} (key : Text) (f : Option α → α)
    (here : t[n]? = some (other, value)) :
    (update key f t)[n]? = some (other, value) ∨
      (update key f t)[n]? = some (other, f (some value)) := by
  induction t generalizing n with
  | nil => cases here
  | cons entry rest ih =>
    obtain ⟨k, v⟩ := entry
    rw [update]
    cases n with
    | zero =>
      cases here
      split_ifs
      · exact .inr rfl
      · exact .inl rfl
    | succ n =>
      split_ifs
      · exact .inl here
      · exact ih here

theorem update_of_same {f : Option α → α} (found : get? key t = some value)
    (same : f (some value) = value) : update key f t = t := by
  induction t with
  | nil => cases found
  | cons entry rest ih =>
    obtain ⟨k, v⟩ := entry
    rw [update]
    split_ifs with here
    · subst here
      obtain rfl : v = value := by simpa [get?] using found
      rw [same]
    · have absent : (key == k) = false := beq_eq_false_iff_ne.mpr (Ne.symm here)
      rw [ih (by simpa [get?, List.lookup_cons, absent] using found)]

theorem insert_of_new (new : key ∉ keys t) (value : α) :
    insert key value t = t ++ [(key, value)] := by
  induction t with
  | nil => rfl
  | cons entry rest ih =>
    obtain ⟨k, v⟩ := entry
    obtain ⟨differs, new⟩ := not_or.mp (mt List.mem_cons.mpr new)
    rw [insert, update, if_neg (Ne.symm differs), ← insert, ih new]
    rfl

theorem mem_of_mem_insert {entry : Text × α} (member : entry ∈ insert key value t) :
    entry ∈ t ∨ entry = (key, value) := by
  induction t with
  | nil => exact .inr (List.mem_singleton.mp member)
  | cons first rest ih =>
    obtain ⟨k, v⟩ := first
    rw [insert, update] at member
    split_ifs at member with same
    · rcases List.mem_cons.mp member with rfl | member
      · exact .inr (same ▸ rfl)
      · exact .inl (List.mem_cons_of_mem _ member)
    · rcases List.mem_cons.mp member with rfl | member
      · exact .inl List.mem_cons_self
      · exact (ih member).imp_left (List.mem_cons_of_mem _)

section OfList

def insertAll (t : Table α) (pairs : List (Text × α)) : Table α :=
  pairs.foldl (fun t (key, value) => insert key value t) t

theorem nodup_keys_insertAll (distinct : (keys t).Nodup) (pairs : List (Text × α)) :
    (keys (insertAll t pairs)).Nodup := by
  induction pairs generalizing t with
  | nil => exact distinct
  | cons pair pairs ih => exact ih (nodup_keys_update distinct _)

theorem mem_of_mem_insertAll {entry : Text × α} (member : entry ∈ insertAll t pairs) :
    entry ∈ t ∨ entry ∈ pairs := by
  induction pairs generalizing t with
  | nil => exact .inl member
  | cons pair pairs ih =>
    rcases ih member with early | late
    · refine (mem_of_mem_insert early).imp_right fun same => ?_
      rw [same]
      exact List.mem_cons_self
    · exact .inr (List.mem_cons_of_mem _ late)

theorem insertAll_of_new (distinct : (keys t ++ keys pairs).Nodup) :
    insertAll t pairs = t ++ pairs := by
  induction pairs generalizing t with
  | nil => exact (List.append_nil t).symm
  | cons pair pairs ih =>
    obtain ⟨k, v⟩ := pair
    have new : k ∉ keys t := fun old =>
      (List.disjoint_of_nodup_append distinct) old List.mem_cons_self
    have moved : t ++ (k, v) :: pairs = (t ++ [(k, v)]) ++ pairs := by simp
    show insertAll (insert k v t) pairs = t ++ (k, v) :: pairs
    rw [insert_of_new new, moved]
    refine ih ?_
    simpa [keys] using distinct

theorem nodup_keys_ofList (pairs : List (Text × α)) : (keys (ofList pairs)).Nodup :=
  nodup_keys_insertAll (t := []) List.nodup_nil pairs

theorem mem_of_mem_ofList {entry : Text × α} (member : entry ∈ ofList pairs) :
    entry ∈ pairs :=
  (mem_of_mem_insertAll member).resolve_left List.not_mem_nil

theorem ofList_of_nodup (distinct : (keys pairs).Nodup) : ofList pairs = pairs :=
  insertAll_of_new (t := []) distinct

end OfList

section Choices
variable {β : Type} {names : List Text}

theorem keys_present_sublist (f : α → β) (t : Table (Option α)) :
    (keys (t.filterMap fun (key, value) => value.map fun a => (key, f a))).Sublist (keys t) := by
  induction t with
  | nil => exact List.Sublist.refl _
  | cons entry t ih =>
    obtain ⟨key, value⟩ := entry
    cases value with
    | none => exact ih.cons key
    | some a => exact ih.cons_cons key

theorem keys_filterMap_sublist {f : Text → Option (Text × α)}
    (named : ∀ name entry, f name = some entry → entry.1 = name) (names : List Text) :
    (keys (names.filterMap f)).Sublist names := by
  simpa [keys] using map_filterMap_sublist named names

/-- A table whose keys are some of the names, in their order, is known from its lookups. -/
theorem filterMap_get?_of_sublist (distinct : names.Nodup)
    (chosen : (keys t).Sublist names) :
    names.filterMap (fun name => (get? name t).map (name, ·)) = t := by
  induction names generalizing t with
  | nil => exact (List.map_eq_nil_iff.mp (List.sublist_nil.mp chosen)).symm
  | cons name names ih =>
    obtain ⟨new, further⟩ := List.nodup_cons.mp distinct
    rcases List.sublist_cons_iff.mp chosen with without | ⟨others, same, later⟩
    · have absent : get? name t = none := by
        rw [← Option.not_isSome_iff_eq_none]
        exact mt (contains_iff name t).mp fun listed => new (without.mem listed)
      rw [List.filterMap_cons_none (by simp [absent])]
      exact ih further without
    · obtain ⟨⟨key, value⟩, rest, rfl, first, rfl⟩ := List.map_eq_cons_iff.mp same
      obtain rfl : key = name := first
      have here : get? key ((key, value) :: rest) = some value := by simp [get?]
      rw [List.filterMap_cons_some (by rw [here]; rfl)]
      congr 1
      refine (List.filterMap_congr fun other member => ?_).trans (ih further later)
      have differs : (other == key) = false := beq_false_of_ne fun same => new (same ▸ member)
      simp [get?, List.lookup_cons, differs]

end Choices

section Groups
variable {β : Type} (name : β → Text) (f : β → Option α → α)

/-- The table made by updating the value under the name of one item after the other. -/
def grouped (bs : List β) : Table α := bs.foldl (fun t b => update (name b) (f b) t) []

theorem grouped_concat (bs : List β) (b : β) :
    grouped name f (bs ++ [b]) = update (name b) (f b) (grouped name f bs) :=
  List.foldl_concat (fun t b => update (name b) (f b) t) [] b bs

theorem keys_grouped (bs : List β) : keys (grouped name f bs) = (bs.map name).eraseDups := by
  induction bs using List.reverseRecOn with
  | nil => rfl
  | append_singleton bs b ih =>
    rw [grouped_concat, keys_update, ih, List.map_append, List.map_singleton, eraseDups_concat]
    simp only [List.mem_eraseDups]

theorem pairwise_grouped (bs : List β) :
    (grouped name f bs).Pairwise fun a b => (bs.map name).idxOf a.1 < (bs.map name).idxOf b.1 := by
  have ordered := pairwise_idxOf_eraseDups (bs.map name)
  rw [← keys_grouped name f bs, keys, List.pairwise_map] at ordered
  exact ordered

theorem nodup_keys_grouped (bs : List β) : (keys (grouped name f bs)).Nodup := by
  induction bs using List.reverseRecOn with
  | nil => exact List.nodup_nil
  | append_singleton bs b ih =>
    rw [grouped_concat]
    exact nodup_keys_update ih (f b)

theorem get?_grouped (key : Text) (bs : List β) :
    get? key (grouped name f bs) =
      (bs.filter (name · = key)).foldl (fun value b => some (f b value)) none := by
  induction bs using List.reverseRecOn with
  | nil => rfl
  | append_singleton bs b ih =>
    rw [grouped_concat, List.filter_append, List.foldl_append, ← ih]
    by_cases same : name b = key
    · subst same
      simp [get?_update_self]
    · rw [get?_update_of_ne (Ne.symm same)]
      simp [same]

end Groups

end Table
end SeoAudit
