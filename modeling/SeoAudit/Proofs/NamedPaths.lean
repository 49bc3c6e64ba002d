import Mathlib.Data.List.TakeWhile
import SeoAudit.Proofs.Lists
import SeoAudit.Tree.Path

/-! Texts that can name a path: they have no null character and no half that stands for no
octet. A path made of such texts can always be resolved. -/
namespace SeoAudit

namespace Path

def Names (text : Text) : Prop := fault? text = none

instance (text : Text) : Decidable (Names text) := inferInstanceAs (Decidable (_ = none))

def IsNamed (c : CodePoint) : Prop := Name.isUnwritable c = false ∧ c ≠ .char '\x00'

variable {text : Text} {segments : List Text} {p : Path}

theorem names_iff : Names text ↔ ∀ c ∈ text, IsNamed c := by
  have split : text.drop (text.takeWhile (!Name.isUnwritable ·)).length =
      text.dropWhile (!Name.isUnwritable ·) := by
    have whole := List.takeWhile_append_dropWhile (p := (!Name.isUnwritable ·)) (l := text)
    calc text.drop (text.takeWhile (!Name.isUnwritable ·)).length
        = (text.takeWhile (!Name.isUnwritable ·) ++ text.dropWhile (!Name.isUnwritable ·)).drop
            (text.takeWhile (!Name.isUnwritable ·)).length := by rw [whole]
      _ = text.dropWhile (!Name.isUnwritable ·) := List.drop_left
  unfold Names fault?
  dsimp only
  rw [split]
  cases rest : text.dropWhile (!Name.isUnwritable ·) with
  | nil =>
    have writable := List.dropWhile_eq_nil_iff.mp rest
    simp only [Bool.not_eq_true'] at writable
    constructor
    · intro named c member
      refine ⟨writable c member, ?_⟩
      rintro rfl
      rw [if_pos (List.contains_iff_mem.mpr member)] at named
      cases named
    · intro named
      rw [if_neg fun null => (named _ (List.contains_iff_mem.mp null)).2 rfl]
  | cons c cs =>
    refine ⟨nofun, fun named => ?_⟩
    have writable : text.dropWhile (!Name.isUnwritable ·) = [] :=
      List.dropWhile_eq_nil_iff.mpr fun c member => by rw [(named c member).1]; rfl
    rw [writable] at rest
    cases rest

theorem Names.append {a b : Text} (ha : Names a) (hb : Names b) : Names (a ++ b) :=
  names_iff.mpr fun c member =>
    (List.mem_append.mp member).elim (names_iff.mp ha c) (names_iff.mp hb c)

theorem names_joined (all : ∀ s ∈ segments, Names s) : Names (Text.joined "/" segments) := by
  refine names_iff.mpr fun c member => ?_
  rcases mem_of_mem_intercalate member with slash | ⟨part, listed, inside⟩
  · exact names_iff.mp (by decide : Names "/") c slash
  · exact names_iff.mp (all part listed) c inside

theorem names_text (all : ∀ s ∈ p.segments, Names s) : Names p.text := by
  unfold Path.text
  split
  · exact Names.append (by decide) (names_joined all)
  · exact Names.append (by decide) (names_joined all)

theorem names_parts (named : Names text) : ∀ s ∈ parts text, Names s := by
  intro s member
  have listed := (List.mem_filter.mp member).1
  refine names_iff.mpr fun c inside => names_iff.mp named c ?_
  have whole : [CodePoint.char '/'].intercalate (text.splitOn (.char '/')) = text :=
    List.intercalate_splitOn _
  rw [← whole]
  exact mem_intercalate_of_mem listed inside

theorem names_join {base : Path} (all : ∀ s ∈ base.segments, Names s) (named : Names text) :
    ∀ s ∈ (base.join text).segments, Names s := by
  unfold join
  split
  · exact names_parts named
  · intro s member
    exact (List.mem_append.mp member).elim (all s) (names_parts named s)

theorem names_resolveFrom {above : List Text} (kept : ∀ s ∈ above, Names s)
    (all : ∀ s ∈ segments, Names s) : ∀ s ∈ resolveFrom above segments, Names s := by
  induction segments generalizing above with
  | nil => exact fun s member => kept s (List.mem_reverse.mp member)
  | cons segment rest ih =>
    have onward := fun s member => all s (List.mem_cons_of_mem segment member)
    unfold resolveFrom
    split
    · exact ih (fun s member => kept s (List.mem_of_mem_tail member)) onward
    · exact ih (List.forall_mem_cons.mpr ⟨all segment List.mem_cons_self, kept⟩) onward

theorem names_resolve (all : ∀ s ∈ p.segments, Names s) :
    ∀ s ∈ p.resolve.segments, Names s :=
  names_resolveFrom (List.forall_mem_nil _) all

theorem names_above {isAbsolute : Bool} {kept : List Text} (all : ∀ s ∈ kept, Names s) :
    ∀ s ∈ above isAbsolute kept, Names s := by
  have up : Names ".." := by decide
  cases kept with
  | nil =>
    cases isAbsolute
    · exact List.forall_mem_singleton.mpr up
    · nofun
  | cons segment kept =>
    have rest := fun s member => all s (List.mem_cons_of_mem segment member)
    simp only [above]
    split
    · exact List.forall_mem_cons.mpr ⟨up, List.forall_mem_cons.mpr ⟨up, rest⟩⟩
    · exact rest

theorem faultFrom?_eq_none {isAbsolute : Bool} {kept : List Text}
    (keptNamed : ∀ s ∈ kept, Names s) (all : ∀ s ∈ segments, Names s) :
    faultFrom? isAbsolute kept segments = none := by
  -- The segments kept so far are named as well, so every place on the way can be looked at.
  induction segments generalizing kept with
  | nil => rfl
  | cons segment rest ih =>
    have onward := fun s member => all s (List.mem_cons_of_mem segment member)
    unfold faultFrom?
    split
    · exact ih (names_above keptNamed) onward
    · have here : ∀ s ∈ segment :: kept, Names s :=
        List.forall_mem_cons.mpr ⟨all segment List.mem_cons_self, keptNamed⟩
      have place : Names (Text.joined "/" (segment :: kept).reverse) :=
        names_joined fun s member => here s (List.mem_reverse.mp member)
      have looked : fault? (if isAbsolute then "/" ++ Text.joined "/" (segment :: kept).reverse
          else Text.joined "/" (segment :: kept).reverse) = none := by
        split
        · exact Names.append (by decide) place
        · exact place
      dsimp only
      rw [looked]
      exact ih here onward

theorem resolvedAs_eq (named : Names text) : p.resolvedAs text = .ok p.resolve := by
  rw [resolvedAs, faultFrom?_eq_none (List.forall_mem_nil _) (names_parts named)]

theorem resolved_eq (all : ∀ s ∈ p.segments, Names s) : p.resolved = .ok p.resolve :=
  resolvedAs_eq (names_text all)

end Path
end SeoAudit
