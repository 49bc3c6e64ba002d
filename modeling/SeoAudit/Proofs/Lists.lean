import Mathlib.Data.List.Forall2
import SeoAudit.Total

/-! Two lists compared item by item: their totals and counts, and the items of a list
with their images when all have one. Computations that may fail are taken apart into the
steps that have succeeded. A list sorted by descending keys keeps the order of equal ones. -/
namespace SeoAudit

section Steps
variable {α β γ ε : Type}

theorem bind_eq_ok_iff {x : Except ε α} {f : α → Except ε β} {b : β} :
    (x >>= f) = .ok b ↔ ∃ a, x = .ok a ∧ f a = .ok b := by
  constructor
  · intro succeeds
    cases x with
    | error e => cases succeeds
    | ok a => exact ⟨a, rfl, succeeds⟩
  · rintro ⟨a, rfl, step⟩
    exact step

theorem bind_congr_ok {x : Except ε α} {f g : α → Except ε β}
    (same : ∀ a, x = .ok a → f a = g a) : x >>= f = x >>= g := by
  cases x with
  | error e => rfl
  | ok a => exact same a rfl

theorem mapError_eq_ok_iff {x : Except ε α} {f : ε → γ} {a : α} :
    x.mapError f = .ok a ↔ x = .ok a := by
  constructor
  · intro succeeds
    cases x with
    | error e => cases succeeds
    | ok a' => cases succeeds; rfl
  · rintro rfl
    rfl

theorem map_eq_ok_iff {x : Except ε α} {f : α → β} {b : β} :
    x.map f = .ok b ↔ ∃ a, x = .ok a ∧ f a = b := by
  constructor
  · intro succeeds
    cases x with
    | error e => cases succeeds
    | ok a => exact ⟨a, rfl, Except.ok.inj succeeds⟩
  · rintro ⟨a, rfl, rfl⟩
    rfl

theorem toOption_eq_some_iff {x : Except ε α} {a : α} : x.toOption = some a ↔ x = .ok a := by
  cases x <;> simp [Except.toOption]

theorem map_bind_eq (x : Except ε α) (f : α → Except ε β) (g : β → γ) :
    (x >>= f).map g = x >>= fun a => (f a).map g := by
  cases x <;> rfl

theorem forM_eq_ok {xs : List α} {f : α → Except ε PUnit}
    (all : ∀ x ∈ xs, f x = .ok ⟨⟩) :
    xs.forM f = .ok ⟨⟩ := by
  induction xs with
  | nil => rfl
  | cons x xs ih =>
    show (f x >>= fun _ => xs.forM f) = _
    rw [all x List.mem_cons_self]
    exact ih fun y member => all y (List.mem_cons_of_mem x member)

end Steps

variable {α : Type} {as bs : List α}

theorem totalOf_mono {f : α → Nat} (all : List.Forall₂ (fun a b => f a ≤ f b) as bs) :
    totalOf f as ≤ totalOf f bs := by
  induction all with
  | nil => exact Nat.le_refl _
  | cons head _ ih =>
    simp only [totalOf]
    omega

theorem totalOf_set {f : α → Nat} {i : Nat} {old : α} (at_ : as[i]? = some old) (a : α) :
    totalOf f (as.set i a) + f old = totalOf f as + f a := by
  induction as generalizing i with
  | nil => cases at_
  | cons first as ih =>
    cases i with
    | zero =>
      cases at_
      rw [List.set_cons_zero, totalOf, totalOf]
      omega
    | succ i =>
      have rest := ih (List.getElem?_cons_succ.symm.trans at_)
      rw [List.set_cons_succ, totalOf, totalOf]
      omega

theorem sumOf_mono {f : α → Int} (all : List.Forall₂ (fun a b => f a ≤ f b) as bs) :
    sumOf f as ≤ sumOf f bs := by
  induction all with
  | nil => exact Int.le_refl _
  | cons head _ ih =>
    simp only [sumOf]
    omega

theorem sumOf_congr {f : α → Int} (all : List.Forall₂ (fun a b => f a = f b) as bs) :
    sumOf f as = sumOf f bs := by
  induction all with
  | nil => rfl
  | cons head _ ih => rw [sumOf, sumOf, head, ih]

theorem sumOf_bounds {f g : α → Int} (all : ∀ a ∈ as, 0 ≤ f a ∧ f a ≤ g a) :
    0 ≤ sumOf f as ∧ sumOf f as ≤ sumOf g as := by
  induction as with
  | nil => exact ⟨Int.le_refl _, Int.le_refl _⟩
  | cons a as ih =>
    have head := all a List.mem_cons_self
    have tail := ih fun b member => all b (List.mem_cons_of_mem a member)
    simp only [sumOf]
    omega

theorem countP_mono {p q : α → Bool} (all : List.Forall₂ (fun a b => p a → q b) as bs) :
    as.countP p ≤ bs.countP q := by
  induction all with
  | nil => exact Nat.le_refl _
  | @cons a b as bs head _ ih =>
    rw [List.countP_cons, List.countP_cons]
    have step : (if p a then 1 else 0) ≤ (if q b then 1 else 0) := by
      by_cases h : p a
      · simp [h, head h]
      · simp [h]
    omega

theorem any_mono {p : α → Bool} (all : List.Forall₂ (fun a b => p a → p b) as bs)
    (some : as.any p) : bs.any p := by
  induction all with
  | nil => exact some
  | cons head _ ih =>
    rw [List.any_cons, Bool.or_eq_true] at some ⊢
    exact some.imp head ih

theorem totalOf_eq_zero {f : α → Nat} (all : ∀ a ∈ as, f a = 0) : totalOf f as = 0 := by
  induction as with
  | nil => rfl
  | cons a as ih =>
    have head := all a List.mem_cons_self
    have tail := ih fun b member => all b (List.mem_cons_of_mem a member)
    simp only [totalOf]
    omega

theorem sumOf_eq_zero {f : α → Int} (all : ∀ a ∈ as, f a = 0) : sumOf f as = 0 := by
  induction as with
  | nil => rfl
  | cons a as ih =>
    have head := all a List.mem_cons_self
    have tail := ih fun b member => all b (List.mem_cons_of_mem a member)
    simp only [sumOf]
    omega

theorem sumOf_nonneg {f : α → Int} (all : ∀ a ∈ as, 0 ≤ f a) : 0 ≤ sumOf f as := by
  induction as with
  | nil => exact Int.le_refl _
  | cons a as ih =>
    have head := all a List.mem_cons_self
    have tail := ih fun b member => all b (List.mem_cons_of_mem a member)
    simp only [sumOf]
    omega

theorem totalOf_perm {f : α → Nat} (perm : as.Perm bs) : totalOf f as = totalOf f bs := by
  induction perm with
  | nil => rfl
  | cons a _ ih => rw [totalOf, totalOf, ih]
  | swap a b as =>
    simp only [totalOf]
    omega
  | trans _ _ first second => exact first.trans second

theorem sumOf_perm {f : α → Int} (perm : as.Perm bs) : sumOf f as = sumOf f bs := by
  induction perm with
  | nil => rfl
  | cons a _ ih => rw [sumOf, sumOf, ih]
  | swap a b as =>
    simp only [sumOf]
    omega
  | trans _ _ first second => exact first.trans second

theorem totalOf_map {β : Type} (count : β → Nat) (g : α → β) (as : List α) :
    totalOf count (as.map g) = totalOf (fun a => count (g a)) as := by
  induction as with
  | nil => rfl
  | cons a as ih => rw [List.map_cons, totalOf, totalOf, ih]

theorem length_flatMap_eq_totalOf {β : Type} (f : α → List β) (as : List α) :
    (as.flatMap f).length = totalOf (fun a => (f a).length) as := by
  induction as with
  | nil => rfl
  | cons a as ih => rw [List.flatMap_cons, List.length_append, ih, totalOf]

theorem sumOf_map {β : Type} (count : β → Int) (g : α → β) (as : List α) :
    sumOf count (as.map g) = sumOf (fun a => count (g a)) as := by
  induction as with
  | nil => rfl
  | cons a as ih => rw [List.map_cons, sumOf, sumOf, ih]

theorem map_filter_filterMap {β γ : Type} {f : α → Option β} {accepts : β → Bool}
    {g : β → γ} {keeps : α → Bool} {h : α → γ}
    (same : ∀ a, ((f a).filter accepts).map g = if keeps a then some (h a) else none) :
    ((as.filterMap f).filter accepts).map g = (as.filter keeps).map h :=
  calc ((as.filterMap f).filter accepts).map g
    _ = as.filterMap fun a => ((f a).filter accepts).map g := by
      rw [List.filter_filterMap, List.map_filterMap]
    _ = as.filterMap fun a => if keeps a then some (h a) else none := by
      simp only [same]
    _ = (as.filter keeps).map h := by
      rw [← List.filterMap_eq_map', List.filterMap_filter]

theorem flatMap_filter {β : Type} (keeps : α → Bool) (g : α → List β) (as : List α) :
    (as.filter keeps).flatMap g = as.flatMap fun a => if keeps a then g a else [] := by
  induction as with
  | nil => rfl
  | cons a as ih => cases keep : keeps a <;> simp [keep, ih]

theorem forall₂_of_mapM {β ε : Type} {f : α → Except ε β} {bs : List β}
    (mapped : as.mapM f = .ok bs) : List.Forall₂ (fun a b => f a = .ok b) as bs := by
  induction as generalizing bs with
  | nil =>
    cases mapped
    exact .nil
  | cons a as ih =>
    rw [List.mapM_cons] at mapped
    obtain ⟨b, head, mapped⟩ := bind_eq_ok_iff.mp mapped
    obtain ⟨rest, tail, mapped⟩ := bind_eq_ok_iff.mp mapped
    cases mapped
    exact .cons head (ih tail)

theorem map_eq_of_mapM {β γ ε : Type} {f : α → Except ε β} {bs : List β} {g : β → γ}
    {h : α → γ} (mapped : as.mapM f = .ok bs) (same : ∀ a, ∀ b ∈ bs, f a = .ok b →
      g b = h a) :
    bs.map g = as.map h := by
  have images := forall₂_of_mapM mapped
  clear mapped
  induction images with
  | nil => rfl
  | @cons a b as bs head _ ih =>
    rw [List.map_cons, List.map_cons, same a b List.mem_cons_self head,
      ih fun a' b' member => same a' b' (List.mem_cons_of_mem b member)]

theorem exists_mapM {β γ ε : Type} {f : α → Except ε β} {g : β → γ} {h : α → γ}
    (steps : ∀ a ∈ as, ∃ b, f a = .ok b ∧ g b = h a) :
    ∃ bs, as.mapM f = .ok bs ∧ bs.map g = as.map h := by
  induction as with
  | nil => exact ⟨[], rfl, rfl⟩
  | cons a as ih =>
    obtain ⟨b, head, same⟩ := steps a List.mem_cons_self
    obtain ⟨bs, tail, images⟩ := ih fun a' member => steps a' (List.mem_cons_of_mem a member)
    refine ⟨b :: bs, ?_, by rw [List.map_cons, List.map_cons, same, images]⟩
    rw [List.mapM_cons, head, tail]
    rfl

theorem exists_mapM_of_forall {β ε : Type} {f : α → Except ε β}
    (steps : ∀ a ∈ as, ∃ b, f a = .ok b) : ∃ bs, as.mapM f = .ok bs := by
  have same : ∀ a ∈ as, ∃ b, f a = .ok b ∧ () = () := fun a member =>
    (steps a member).imp fun b step => ⟨step, rfl⟩
  obtain ⟨bs, mapped, -⟩ := exists_mapM (g := fun _ => ()) (h := fun _ => ()) same
  exact ⟨bs, mapped⟩

theorem filterMap_eq_of_mapM {β γ ε : Type} {f : α → Except ε β} {bs : List β}
    {g : β → Option γ} {h : α → Option γ} (mapped : as.mapM f = .ok bs)
    (same : ∀ a b, f a = .ok b → g b = h a) :
    bs.filterMap g = as.filterMap h := by
  have images : bs.map g = as.map h := map_eq_of_mapM mapped fun a b _ image => same a b image
  have chosen := congrArg (List.filterMap id) images
  rwa [List.filterMap_map, List.filterMap_map] at chosen

theorem mapM_congr_left {β ε : Type} {f other : α → Except ε β}
    (same : ∀ a ∈ as, f a = other a) :
    as.mapM f = as.mapM other := by
  induction as with
  | nil => rfl
  | cons a as ih =>
    obtain ⟨head, tail⟩ := List.forall_mem_cons.mp same
    rw [List.mapM_cons, List.mapM_cons, head, ih tail]

/-- Items that a traversal gets past may be left out: it fails as before, or succeeds and
gives the same images but for theirs. -/
theorem mapM_filter_cases {β γ ε : Type} {f : α → Except ε β} {keeps : α → Bool}
    {g : β → Option γ} (passed : ∀ a ∈ as, keeps a = false →
      ∃ b, f a = .ok b ∧ g b = none) :
    (∃ e, as.mapM f = .error e ∧ (as.filter keeps).mapM f = .error e) ∨
      ∃ bs cs, as.mapM f = .ok bs ∧ (as.filter keeps).mapM f = .ok cs ∧
        cs.filterMap g = bs.filterMap g := by
  induction as with
  | nil => exact .inr ⟨[], [], rfl, rfl, rfl⟩
  | cons a as ih =>
    obtain ⟨head, tail⟩ := List.forall_mem_cons.mp passed
    rw [List.mapM_cons]
    cases keep : keeps a with
    | true =>
      rw [List.filter_cons_of_pos keep, List.mapM_cons]
      cases f a with
      | error e => exact .inl ⟨e, rfl, rfl⟩
      | ok b =>
        rcases ih tail with ⟨e, all, fewer⟩ | ⟨bs, cs, all, fewer, same⟩
        · exact .inl ⟨e, by rw [all]; rfl, by rw [fewer]; rfl⟩
        · refine .inr ⟨b :: bs, b :: cs, by rw [all]; rfl, by rw [fewer]; rfl, ?_⟩
          rw [List.filterMap_cons, List.filterMap_cons, same]
    | false =>
      obtain ⟨b, image, none⟩ := head keep
      rw [List.filter_cons_of_neg (by simp [keep]), image]
      rcases ih tail with ⟨e, all, fewer⟩ | ⟨bs, cs, all, fewer, same⟩
      · exact .inl ⟨e, by rw [all]; rfl, fewer⟩
      · refine .inr ⟨b :: bs, cs, by rw [all]; rfl, fewer, ?_⟩
        rw [List.filterMap_cons_none none, same]

theorem mapM_set {β ε : Type} {f : α → Except ε β} {bs : List β} {a : α} {b : β}
    (mapped : as.mapM f = .ok bs) (image : f a = .ok b) (i : Nat) :
    (as.set i a).mapM f = .ok (bs.set i b) := by
  induction as generalizing bs i with
  | nil =>
    cases mapped
    rfl
  | cons first as ih =>
    rw [List.mapM_cons] at mapped
    obtain ⟨c, head, mapped⟩ := bind_eq_ok_iff.mp mapped
    obtain ⟨cs, tail, mapped⟩ := bind_eq_ok_iff.mp mapped
    cases mapped
    cases i with
    | zero =>
      rw [List.set_cons_zero, List.mapM_cons, image, tail]
      rfl
    | succ i =>
      rw [List.set_cons_succ, List.mapM_cons, head, ih tail i]
      rfl

theorem exists_of_mem_mapM {β ε : Type} {f : α → Except ε β} {bs : List β}
    (mapped : as.mapM f = .ok bs) {b : β} (member : b ∈ bs) : ∃ a ∈ as, f a = .ok b := by
  have images := forall₂_of_mapM mapped
  clear mapped
  induction images with
  | nil => cases member
  | @cons a c as bs head _ ih =>
    rcases List.mem_cons.mp member with rfl | member
    · exact ⟨a, List.mem_cons_self, head⟩
    · obtain ⟨a', listed, image⟩ := ih member
      exact ⟨a', List.mem_cons_of_mem a listed, image⟩

section Intercalate
variable {a : α} {separator : List α} {parts : List (List α)}

theorem mem_of_mem_intercalate (member : a ∈ separator.intercalate parts) :
    a ∈ separator ∨ ∃ part ∈ parts, a ∈ part := by
  induction parts with
  | nil => cases member
  | cons first rest ih =>
    cases rest with
    | nil => exact .inr ⟨first, List.mem_cons_self, by simpa using member⟩
    | cons second more =>
      rw [List.intercalate_cons_cons, List.mem_append, List.mem_append] at member
      rcases member with (inFirst | inSeparator) | later
      · exact .inr ⟨first, List.mem_cons_self, inFirst⟩
      · exact .inl inSeparator
      · exact (ih later).imp_right fun ⟨part, listed, inside⟩ =>
          ⟨part, List.mem_cons_of_mem first listed, inside⟩

theorem mem_intercalate_of_mem {part : List α} (listed : part ∈ parts) (inside : a ∈ part) :
    a ∈ separator.intercalate parts := by
  induction parts with
  | nil => cases listed
  | cons first rest ih =>
    cases rest with
    | nil => simpa [List.mem_singleton.mp listed] using inside
    | cons second more =>
      rw [List.intercalate_cons_cons, List.mem_append, List.mem_append]
      rcases List.mem_cons.mp listed with rfl | later
      · exact .inl (.inl inside)
      · exact .inr (ih later)

end Intercalate

section Descending
variable {α : Type} (key : α → Nat) {R : α → α → Prop} {l : List α}

theorem descending_trans (a b c : α) (ab : decide (key b ≤ key a))
    (bc : decide (key c ≤ key b)) :
    decide (key c ≤ key a) :=
  decide_eq_true (Nat.le_trans (of_decide_eq_true bc) (of_decide_eq_true ab))

theorem descending_total (a b : α) : decide (key b ≤ key a) || decide (key a ≤ key b) := by
  simpa using Nat.le_total (key b) (key a)

theorem filter_mergeSort_of_key (l : List α) (n : Nat) :
    (l.mergeSort fun a b => decide (key b ≤ key a)).filter (key · = n) =
      l.filter (key · = n) := by
  have alike : (l.filter (key · = n)).Pairwise fun a b => decide (key b ≤ key a) := by
    refine List.pairwise_of_forall_mem_list fun a ha b hb => ?_
    simp only [List.mem_filter, decide_eq_true_eq] at ha hb
    simp [ha.2, hb.2]
  have chosen := (List.sublist_mergeSort (descending_trans key) (descending_total key) alike
    List.filter_sublist).filter (key · = n)
  rw [List.filter_filter] at chosen
  simp only [Bool.and_self] at chosen
  exact (chosen.eq_of_length ((List.mergeSort_perm l _).filter _).length_eq.symm).symm

theorem pairwise_mergeSort_of_key (before : l.Pairwise R) :
    (l.mergeSort fun a b => decide (key b ≤ key a)).Pairwise fun a b =>
      key b < key a ∨ key b = key a ∧ R a b := by
  have sorted := List.pairwise_mergeSort (descending_trans key) (descending_total key) l
  refine List.pairwise_iff_forall_sublist.mpr fun {a b} pair => ?_
  have descends := of_decide_eq_true (List.pairwise_iff_forall_sublist.mp sorted pair)
  rcases Nat.lt_or_eq_of_le descends with less | same
  · exact .inl less
  · -- Both stand among the items of their key, which the sorting leaves in their order.
    have alike := pair.filter (key · = key a)
    rw [filter_mergeSort_of_key] at alike
    simp only [List.filter_cons, same, decide_true, if_true, List.filter_nil] at alike
    exact .inr ⟨same, List.pairwise_iff_forall_sublist.mp before
      (alike.trans List.filter_sublist)⟩

end Descending

end SeoAudit
