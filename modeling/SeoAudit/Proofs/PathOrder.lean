import SeoAudit.Project.Discovery

/-! The order in which pages are listed. It is linear, so paths are sorted in one way only. -/
namespace SeoAudit

namespace CodePoint

theorem code_injective {a b : CodePoint} (same : a.code = b.code) : a = b := by
  rw [← ofCode_code a, same, ofCode_code]

instance : Std.Irrefl (α := CodePoint) (· < ·) := ⟨fun a => Nat.lt_irrefl a.code⟩

instance : Std.Asymm (α := CodePoint) (· < ·) := ⟨fun _ _ => Nat.lt_asymm⟩

instance : Trans (α := CodePoint) (· < ·) (· < ·) (· < ·) := ⟨Nat.lt_trans⟩

instance : Std.Trichotomous (α := CodePoint) (· < ·) :=
  ⟨fun _ _ notLess notGreater => code_injective (Nat.le_antisymm (Nat.le_of_not_lt notGreater)
    (Nat.le_of_not_lt notLess))⟩

end CodePoint

theorem Text.lt_or_eq_or_gt (a b : Text) : a < b ∨ a = b ∨ b < a := by
  by_cases less : a < b
  · exact .inl less
  · by_cases greater : b < a
    · exact .inr (.inr greater)
    · exact .inr (.inl (List.le_antisymm (List.not_lt.mp greater) (List.not_lt.mp less)))

namespace Discovery

theorem componentsLe_cons_iff {a b : Text} {as bs : List Text} :
    componentsLe (a :: as) (b :: bs) ↔ a < b ∨ a = b ∧ componentsLe as bs := by
  simp [componentsLe]

theorem componentsLe_trans {as bs cs : List Text} (first : componentsLe as bs)
    (second : componentsLe bs cs) : componentsLe as cs := by
  induction as generalizing bs cs with
  | nil => rfl
  | cons a as ih =>
    cases bs with
    | nil => cases first
    | cons b bs =>
      cases cs with
      | nil => cases second
      | cons c cs =>
        rw [componentsLe_cons_iff] at first second ⊢
        rcases first with less | ⟨rfl, first⟩
        · rcases second with less' | ⟨rfl, -⟩
          · exact .inl (List.lt_trans less less')
          · exact .inl less
        · exact second.imp_right fun ⟨same, second⟩ => ⟨same, ih first second⟩

theorem componentsLe_total (as bs : List Text) : componentsLe as bs || componentsLe bs as := by
  induction as generalizing bs with
  | nil => rfl
  | cons a as ih =>
    cases bs with
    | nil => rfl
    | cons b bs =>
      rw [Bool.or_eq_true, componentsLe_cons_iff, componentsLe_cons_iff]
      rcases Text.lt_or_eq_or_gt a b with less | rfl | greater
      · exact .inl (.inl less)
      · exact (Bool.or_eq_true _ _ ▸ ih bs).imp (fun le => .inr ⟨rfl, le⟩) fun le =>
          .inr ⟨rfl, le⟩
      · exact .inr (.inl greater)

theorem componentsLe_antisymm {as bs : List Text} (first : componentsLe as bs)
    (second : componentsLe bs as) : as = bs := by
  induction as generalizing bs with
  | nil =>
    cases bs with
    | nil => rfl
    | cons b bs => cases second
  | cons a as ih =>
    cases bs with
    | nil => cases first
    | cons b bs =>
      rw [componentsLe_cons_iff] at first second
      rcases first with less | ⟨rfl, first⟩
      · rcases second with greater | ⟨rfl, -⟩
        · exact (List.lt_asymm less greater).elim
        · exact (List.lt_irrefl _ less).elim
      · rcases second with less | ⟨-, second⟩
        · exact (List.lt_irrefl _ less).elim
        · rw [ih first second]

theorem pairwise_mergeSort (paths : List (List Text)) :
    (paths.mergeSort componentsLe).Pairwise (componentsLe · ·) := by
  have trans (as bs cs : List Text) (first : componentsLe as bs) (second : componentsLe bs cs) :
      componentsLe as cs :=
    componentsLe_trans first second
  exact List.pairwise_mergeSort trans componentsLe_total paths

theorem mergeSort_eq_of_sorted {paths sorted : List (List Text)} (perm : paths.Perm sorted)
    (ordered : sorted.Pairwise (componentsLe · ·)) : paths.mergeSort componentsLe = sorted :=
  ((List.mergeSort_perm paths _).trans perm).eq_of_pairwise
    (fun _ _ _ _ => componentsLe_antisymm) (pairwise_mergeSort paths) ordered

theorem mergeSort_eq_of_perm {paths others : List (List Text)} (perm : paths.Perm others) :
    paths.mergeSort componentsLe = others.mergeSort componentsLe :=
  mergeSort_eq_of_sorted (perm.trans (List.mergeSort_perm others _).symm)
    (pairwise_mergeSort others)

theorem mergeSort_filter (keeps : List Text → Bool) (paths : List (List Text)) :
    (paths.filter keeps).mergeSort componentsLe = (paths.mergeSort componentsLe).filter keeps :=
  mergeSort_eq_of_sorted ((List.mergeSort_perm paths _).symm.filter keeps)
    ((pairwise_mergeSort paths).filter keeps)

theorem componentsLe_iff {as bs : List Text} : componentsLe as bs ↔ as = bs ∨ as < bs := by
  induction as generalizing bs with
  | nil => cases bs <;> simp [componentsLe]
  | cons a as ih =>
    cases bs with
    | nil => simp [componentsLe]
    | cons b bs =>
      rw [componentsLe_cons_iff, ih, List.cons_lt_cons_iff, List.cons.injEq]
      grind

end Discovery
end SeoAudit
