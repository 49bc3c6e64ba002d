import Mathlib.Data.List.Induction
import SeoAudit.Markup.Region
import SeoAudit.Proofs.LeftmostFinds

/-! Tags in a text. What a recogniser finds are the successive leftmost texts of a kind that do
not overlap. A tag ends at the next `>`, so the finds in front of a `>` and those behind it
have nothing to do with each other, and a piece of text without one closes one tag at most. -/
namespace SeoAudit

theorem eq_of_split {α : Type} {c : α} {w v s t : List α} (first : c ∉ w) (first' : c ∉ v)
    (same : w ++ c :: s = v ++ c :: t) : w = v ∧ s = t := by
  induction w generalizing v with
  | nil =>
    cases v with
    | nil => exact ⟨rfl, (List.cons.inj same).2⟩
    | cons d v =>
      obtain ⟨rfl, -⟩ := List.cons.inj same
      exact absurd List.mem_cons_self first'
  | cons d w ih =>
    cases v with
    | nil =>
      obtain ⟨rfl, -⟩ := List.cons.inj same
      exact absurd List.mem_cons_self first
    | cons e v =>
      obtain ⟨rfl, behind⟩ := List.cons.inj same
      obtain ⟨rfl, rest⟩ := ih (List.not_mem_of_not_mem_cons first)
        (List.not_mem_of_not_mem_cons first') behind
      exact ⟨rfl, rest⟩

theorem suffix_of_foreign {α : Type} {c : α} {a b v : List α} (foreign : c ∉ a)
    (part : c :: v <:+ a ++ b) : c :: v <:+ b := by
  rcases List.suffix_or_suffix_of_suffix part (List.suffix_append a b) with behind | ⟨z, same⟩
  · exact behind
  · cases z with
    | nil => exact ⟨[], same.symm⟩
    | cons d z =>
      obtain ⟨rfl, rfl⟩ := List.cons.inj same
      obtain ⟨x, whole⟩ := part
      have front : x ++ d :: z = a := List.append_cancel_right (by simpa using whole)
      exact absurd (front ▸ List.mem_append_right x List.mem_cons_self) foreign

namespace Text
variable {α : Type} {P : Text → α → Prop} {r : Recogniser α} {w u m : Text} {a : α}

/-- The texts of a kind in a text: each is the leftmost behind the one before. -/
inductive Successive (Q : Text → Prop) : Text → List Text → Prop where
  | done {w : Text} (nowhere : ∀ m, Q m → ¬ m <:+: w) : Successive Q w []
  | next {before m rest : Text} {later : List Text}
      (leftmost : ∀ n < before.length, ∀ t, Q t → ¬ t <+: (before ++ (m ++ rest)).drop n)
      (found : Q m) (others : Successive Q rest later) :
      Successive Q (before ++ (m ++ rest)) (m :: later)

/-- A recogniser of texts of a kind, none of which is empty, with what each stands for. -/
structure Recognises (P : Text → α → Prop) (r : Recogniser α) : Prop where
  nonempty (m : Text) (a : α) : P m a → m ≠ []
  here (s : Text) (a : α) (u : Text) : r s = some (a, u) ↔ ∃ m, s = m ++ u ∧ P m a

namespace Recognises

theorem eq_none (recognises : Recognises P r) : r w = none ↔ ∀ m a, P m a → ¬ m <+: w := by
  constructor
  · rintro nothing m a kind ⟨u, same⟩
    have found := (recognises.here w a u).mpr ⟨m, same.symm, kind⟩
    rw [nothing] at found
    cases found
  · intro nothing
    cases found : r w with
    | none => rfl
    | some result =>
      obtain ⟨m, same, kind⟩ := (recognises.here w result.1 result.2).mp found
      exact absurd ⟨result.2, same.symm⟩ (nothing m result.1 kind)

theorem skips (recognises : Recognises P r)
    (nowhere : ∀ n < w.length, ∀ m a, P m a → ¬ m <+: (w ++ u).drop n) : Skips r w u :=
  skips_iff.mpr fun n inside => recognises.eq_none.mpr (nowhere n inside)

theorem findAll_eq_nil (recognises : Recognises P r) (nowhere : ∀ m a, P m a → ¬ m <:+: w) :
    findAll r w = [] := by
  have skips : Skips r w [] := recognises.skips fun n _ m a kind leads => by
    rw [List.append_nil] at leads
    exact nowhere m a kind (leads.isInfix.trans (List.drop_suffix n w).isInfix)
  rw [← List.append_nil w, skips.findAll_append]
  rfl

theorem exists_successive (recognises : Recognises P r) (w : Text) :
    ∃ finds, Successive (fun m => ∃ a, P m a) w finds ∧
      List.Forall₂ P finds (findAll r w) := by
  induction length : w.length using Nat.strong_induction_on generalizing w with
  | _ size ih =>
    cases place : upTo r w with
    | none =>
      have nowhere (m : Text) (a : α) (kind : P m a) : ¬ m <:+: w := by
        rintro ⟨before, after, same⟩
        have none := upTo_eq_none_iff.mp place before.length
        refine recognises.eq_none.mp none m a kind ⟨after, ?_⟩
        rw [← same, List.append_assoc, List.drop_left]
      refine ⟨[], .done fun m ⟨a, kind⟩ => nowhere m a kind, ?_⟩
      rw [recognises.findAll_eq_nil nowhere]
      exact .nil
    | some found =>
      obtain ⟨before, a, rest⟩ := found
      obtain ⟨u, rfl, skips, here⟩ := eq_append_of_upTo place
      obtain ⟨m, rfl, kind⟩ := (recognises.here u a rest).mp here
      have nonempty := recognises.nonempty m a kind
      have shorter : rest.length < size := by
        have positive := List.length_pos_iff.mpr nonempty
        simp only [List.length_append] at length
        omega
      obtain ⟨later, successive, values⟩ := ih rest.length shorter rest rfl
      refine ⟨m :: later, .next ?_ ⟨a, kind⟩ successive, ?_⟩
      · rintro n inside t ⟨b, kind⟩
        exact recognises.eq_none.mp (skips_iff.mp skips n inside) t b kind
      · rw [skips.findAll_append, findAll_of_some nonempty here]
        exact .cons kind values

end Recognises

def EndsOnce (m : Text) : Prop := ∃ inner : Text, m = inner ++ [.char '>'] ∧ .char '>' ∉ inner

theorem findAll_cons_of_none {c : CodePoint} (nothing : r (c :: w) = none) :
    findAll r (c :: w) = findAll r w := by
  rw [findAll, findAllFrom, nothing]
  rfl

def IsFront (w : Text) : Prop := w = [] ∨ ∃ c : Text, w = c ++ [.char '>']

section Closed
variable (recognises : Recognises P r) (closed : ∀ m a, P m a → EndsOnce m)
include recognises closed

theorem here_closed {s : Text} (noEnd : .char '>' ∉ w) :
    r (w ++ .char '>' :: u) = some (a, s) ↔ s = u ∧ P (w ++ [.char '>']) a := by
  rw [recognises.here]
  constructor
  · rintro ⟨m, same, kind⟩
    obtain ⟨inner, rfl, noEnd'⟩ := closed m a kind
    rw [List.append_assoc, List.singleton_append] at same
    obtain ⟨rfl, rfl⟩ := eq_of_split noEnd noEnd' same
    exact ⟨rfl, kind⟩
  · rintro ⟨rfl, kind⟩
    exact ⟨_, by simp, kind⟩

theorem here_closed_none (noEnd : .char '>' ∉ w) (nothing : ¬ ∃ a, P (w ++ [.char '>']) a) :
    r (w ++ .char '>' :: u) = none := by
  cases found : r (w ++ .char '>' :: u) with
  | none => rfl
  | some result => exact absurd ⟨_, ((here_closed recognises closed noEnd).mp found).2⟩ nothing

theorem findAll_here (noEnd : .char '>' ∉ w) (kind : P (w ++ [.char '>']) a) (u : Text) :
    findAll r (w ++ .char '>' :: u) = a :: findAll r u := by
  have here := (here_closed recognises closed (u := u) noEnd).mpr ⟨rfl, kind⟩
  rw [← List.singleton_append, ← List.append_assoc] at here ⊢
  exact findAll_of_some (by simp) here

theorem findAll_not_here {c : CodePoint} (noEnd : .char '>' ∉ c :: w)
    (nothing : ¬ ∃ a, P (c :: w ++ [.char '>']) a) (u : Text) :
    findAll r (c :: w ++ .char '>' :: u) = findAll r (w ++ .char '>' :: u) :=
  findAll_cons_of_none (here_closed_none recognises closed noEnd nothing)

theorem findAll_piece (noEnd : .char '>' ∉ w) (u : Text) :
    findAll r (w ++ .char '>' :: u) = findAll r (w ++ [.char '>']) ++ findAll r u := by
  have apart {v : Text} (noEnd : .char '>' ∉ v) (found : ∃ a, P (v ++ [.char '>']) a) :
      findAll r (v ++ .char '>' :: u) = findAll r (v ++ [.char '>']) ++ findAll r u := by
    obtain ⟨a, kind⟩ := found
    rw [findAll_here recognises closed noEnd kind, findAll_here recognises closed noEnd kind]
    rfl
  induction w with
  | nil =>
    by_cases found : ∃ a, P ([] ++ [.char '>']) a
    · exact apart noEnd found
    · have step (u : Text) : findAll r ([] ++ .char '>' :: u) = findAll r u :=
        findAll_cons_of_none (here_closed_none recognises closed noEnd found)
      rw [step, step]
      rfl
  | cons c w ih =>
    by_cases found : ∃ a, P (c :: w ++ [.char '>']) a
    · exact apart noEnd found
    · rw [findAll_not_here recognises closed noEnd found,
        findAll_not_here recognises closed noEnd found]
      exact ih (List.not_mem_of_not_mem_cons noEnd)

theorem findAll_append (w u : Text) :
    findAll r (w ++ .char '>' :: u) = findAll r (w ++ [.char '>']) ++ findAll r u := by
  induction length : w.length using Nat.strong_induction_on generalizing w with
  | _ size ih =>
    by_cases ends : .char '>' ∈ w
    · obtain ⟨piece, rest, rfl, noEnd⟩ := List.eq_append_cons_of_mem ends
      have shorter : rest.length < size := by
        simp only [List.length_append, List.length_cons] at length
        omega
      have behind := ih rest.length shorter rest rfl
      simp only [List.append_assoc, List.cons_append]
      rw [findAll_piece recognises closed noEnd, behind,
        findAll_piece recognises closed noEnd (rest ++ _), List.append_assoc]
    · exact findAll_piece recognises closed ends u

theorem findAll_open (noEnd : .char '>' ∉ w) : findAll r w = [] := by
  refine recognises.findAll_eq_nil fun m a kind part => ?_
  obtain ⟨inner, rfl, -⟩ := closed m a kind
  exact noEnd (part.subset (by simp))

/-- A tag put behind a text closes what is still open there, and nothing else. -/
theorem length_findAll_insert {front tail : Text} (isFront : IsFront front)
    (noEnd : .char '>' ∉ tail) (t after : Text) :
    (findAll r (front ++ tail ++ (t ++ .char '>' :: after))).length =
      (findAll r (front ++ tail)).length + (findAll r (tail ++ t ++ [.char '>'])).length +
        (findAll r after).length := by
  have apart (u : Text) : findAll r (front ++ u) = findAll r front ++ findAll r u := by
    rcases isFront with rfl | ⟨c, rfl⟩
    · rfl
    · rw [List.append_assoc]
      exact findAll_append recognises closed c u
  have piece := findAll_append recognises closed (tail ++ t) after
  have nothing : findAll r tail = [] := findAll_open recognises closed noEnd
  simp only [List.append_assoc] at piece ⊢
  rw [apart, apart, piece, nothing]
  simp only [List.length_append, List.length_nil]
  omega

theorem length_findAll_closing {v : Text} (noEnd : .char '>' ∉ w) (part : v <:+ w)
    (kind : P (v ++ [.char '>']) a) : (findAll r (w ++ [.char '>'])).length = 1 := by
  induction w with
  | nil =>
    obtain rfl := List.suffix_nil.mp part
    rw [findAll_here recognises closed noEnd kind]
    rfl
  | cons c w ih =>
    by_cases found : ∃ a, P (c :: w ++ [.char '>']) a
    · obtain ⟨b, kind⟩ := found
      rw [findAll_here recognises closed noEnd kind]
      rfl
    · have later : v <:+ w := by
        rcases List.suffix_cons_iff.mp part with whole | later
        · exact absurd ⟨a, whole ▸ kind⟩ found
        · exact later
      rw [findAll_not_here recognises closed noEnd found]
      exact ih (List.not_mem_of_not_mem_cons noEnd) later

theorem findAll_closing_eq_nil (noEnd : .char '>' ∉ w)
    (nothing : ∀ v, v <:+ w → ¬ ∃ a, P (v ++ [.char '>']) a) :
    findAll r (w ++ [.char '>']) = [] := by
  have skips : Skips r w [.char '>'] := skips_iff.mpr fun n inside => by
    have part := List.drop_suffix n w
    rw [List.drop_append_of_le_length inside.le]
    exact here_closed_none recognises closed (fun member => noEnd (part.subset member))
      (nothing _ part)
  have last : r [.char '>'] = none :=
    here_closed_none recognises closed List.not_mem_nil (nothing [] List.nil_suffix)
  rw [skips.findAll_append, findAll_cons_of_none last]
  rfl

end Closed

theorem exists_open_end (w : Text) :
    ∃ front tail : Text, w = front ++ tail ∧ IsFront front ∧ .char '>' ∉ tail := by
  induction w using List.reverseRecOn with
  | nil => exact ⟨[], [], rfl, .inl rfl, List.not_mem_nil⟩
  | append_singleton w d ih =>
    by_cases ends : d = .char '>'
    · exact ⟨w ++ [d], [], (List.append_nil _).symm, .inr ⟨w, ends ▸ rfl⟩,
        List.not_mem_nil⟩
    · obtain ⟨front, tail, rfl, isFront, noEnd⟩ := ih
      refine ⟨front, tail ++ [d], List.append_assoc .., isFront, ?_⟩
      simp [noEnd, Ne.symm ends]

theorem suffix_of_open {front tail : Text} (isFront : IsFront front) (noEnd : .char '>' ∉ w)
    (part : w <:+ front ++ tail) : w <:+ tail := by
  rcases isFront with rfl | ⟨c, rfl⟩
  · exact part
  · rw [List.append_assoc] at part
    rcases List.suffix_or_suffix_of_suffix part (List.suffix_append c _) with inside | reaches
    · rcases List.suffix_cons_iff.mp inside with whole | inside
      · exact absurd (whole ▸ List.mem_cons_self) noEnd
      · exact inside
    · exact absurd (reaches.subset List.mem_cons_self) noEnd

end Text

namespace Markup
open Text (EndsOnce Recognises)
variable {letters : List Char} {letter c : Char} {s o u m : Text}

def Spells (letters : List Char) (o : Text) : Prop :=
  List.Forall₂ (fun letter c => CodePoint.satisfies (sameLetter letter) c) letters o

def IsTag (literal : String) (m : Text) : Prop :=
  ∃ o rest, m = o ++ rest ∧ Spells literal.toList o ∧ EndsOnce rest

theorem afterAnyCase_eq_some :
    afterAnyCase letters s = some (o, u) ↔ s = o ++ u ∧ Spells letters o := by
  induction letters generalizing s o with
  | nil =>
    constructor
    · rintro read
      cases read
      exact ⟨rfl, .nil⟩
    · rintro ⟨rfl, spells⟩
      cases spells
      rfl
  | cons letter letters ih =>
    cases s with
    | nil =>
      constructor
      · nofun
      · rintro ⟨same, spells⟩
        cases spells
        cases same
    | cons c s =>
      rw [afterAnyCase]
      constructor
      · intro read
        split_ifs at read with reads
        obtain ⟨⟨taken, rest⟩, behind, same⟩ := Option.map_eq_some_iff.mp read
        cases same
        obtain ⟨rfl, spells⟩ := ih.mp behind
        exact ⟨rfl, .cons reads spells⟩
      · rintro ⟨same, spells⟩
        cases spells with
        | cons reads spells =>
          obtain ⟨rfl, behind⟩ := List.cons.inj same
          rw [if_pos reads, ih.mpr ⟨behind, spells⟩]
          rfl

theorem tagRest_of_endsOnce {rest : Text} (closed : EndsOnce rest) (u : Text) :
    tagRest (rest ++ u) = some (rest, u) := by
  obtain ⟨inner, rfl, noEnd⟩ := closed
  have free : ∀ c ∈ inner, decide (c ≠ CodePoint.char '>') = true := fun c member =>
    decide_eq_true fun same => noEnd (same ▸ member)
  have stops : (inner ++ ([CodePoint.char '>'] ++ u)).takeWhile (· ≠ .char '>') = inner := by
    rw [List.takeWhile_append_of_pos free]
    exact List.append_nil inner
  rw [tagRest, List.append_assoc, List.dropWhile_append_of_pos free, stops]
  rfl

theorem tagRest_eq_some {rest : Text} :
    tagRest s = some (rest, u) ↔ s = rest ++ u ∧ EndsOnce rest := by
  constructor
  · intro read
    by_cases ends : .char '>' ∈ s
    · obtain ⟨inner, behind, rfl, noEnd⟩ := List.eq_append_cons_of_mem ends
      have closed : EndsOnce (inner ++ [.char '>']) := ⟨inner, rfl, noEnd⟩
      have whole := tagRest_of_endsOnce closed behind
      rw [List.append_assoc, List.singleton_append, read] at whole
      cases whole
      exact ⟨by simp, closed⟩
    · have nothing : s.dropWhile (· ≠ .char '>') = [] :=
        List.dropWhile_eq_nil_iff.mpr fun c member => decide_eq_true fun same =>
          ends (same ▸ member)
      rw [tagRest, nothing] at read
      cases read
  · rintro ⟨rfl, closed⟩
    exact tagRest_of_endsOnce closed u

theorem tag_recognises (literal : String) :
    Recognises (fun m a => a = m ∧ IsTag literal m) (tag literal) where
  nonempty := by
    rintro m a ⟨-, o, rest, rfl, -, inner, rfl, -⟩
    simp
  here s a u := by
    simp only [tag, Option.bind_eq_bind, Option.bind_eq_some_iff, Prod.exists, afterAnyCase_eq_some,
      tagRest_eq_some, pure, Option.some.injEq, Prod.mk.injEq]
    constructor
    · rintro ⟨o, s', ⟨rfl, spells⟩, rest, u', ⟨rfl, closed⟩, rfl, rfl⟩
      exact ⟨o ++ rest, (List.append_assoc ..).symm, rfl, o, rest, rfl, spells, closed⟩
    · rintro ⟨m, rfl, rfl, o, rest, rfl, spells, closed⟩
      exact ⟨o, rest ++ u, ⟨List.append_assoc .., spells⟩, rest, u, ⟨rfl, closed⟩,
        rfl, rfl⟩

theorem toLower_cases (c : Char) :
    c.toLower = c ∨ 65 ≤ c.toNat ∧ c.toLower.toNat = c.toNat + 32 := by
  unfold Char.toLower
  split
  · rename_i h
    have low : 65 ≤ c.val.toNat := UInt32.le_iff_toNat_le.mp h.1
    have high : c.val.toNat ≤ 90 := UInt32.le_iff_toNat_le.mp h.2
    refine .inr ⟨low, ?_⟩
    show (c.val + 32).toNat = c.val.toNat + 32
    rw [UInt32.toNat_add]
    exact Nat.mod_eq_of_lt (by omega : c.val.toNat + 32 < 2 ^ 32)
  · exact .inl rfl

theorem sameLetter_mark (mark : letter.toNat < 97) : sameLetter letter c ↔ c = letter := by
  have notI : letter ≠ 'i' := by
    rintro rfl
    exact absurd mark (by decide)
  constructor
  · intro same
    have same : c = letter ∨ c.toLower = letter := by simpa [sameLetter, notI] using same
    rcases same with here | lowered
    · exact here
    · rcases toLower_cases c with kept | ⟨capital, moved⟩
      · rw [← kept, lowered]
      · rw [lowered] at moved
        omega
  · rintro rfl
    simp [sameLetter]

theorem spells_cons_iff {letters : List Char} :
    Spells (letter :: letters) o ↔
      ∃ c rest, sameLetter letter c ∧ Spells letters rest ∧ o = .char c :: rest := by
  constructor
  · intro spells
    cases spells with
    | @cons _ c _ rest reads behind =>
      cases c with
      | char c => exact ⟨c, rest, reads, behind, rfl⟩
      | half => cases reads
  · rintro ⟨c, rest, reads, behind, rfl⟩
    exact .cons reads behind

theorem Spells.not_mem (spells : Spells letters o)
    (foreign : ∀ letter ∈ letters, sameLetter letter c = false) : .char c ∉ o := by
  induction spells with
  | nil => exact List.not_mem_nil
  | cons reads _ ih =>
    obtain ⟨first, others⟩ := List.forall_mem_cons.mp foreign
    refine fun member => (List.mem_cons.mp member).elim ?_ (ih others)
    rintro rfl
    exact absurd reads (by rw [CodePoint.satisfies, first]; decide)

theorem Spells.tag_start (spells : Spells ('<' :: letter :: letters) o)
    (foreign : ∀ other ∈ letter :: letters, sameLetter other '<' = false) :
    ∃ c rest, o = .char '<' :: .char c :: rest ∧ sameLetter letter c ∧
      .char '<' ∉ CodePoint.char c :: rest := by
  obtain ⟨mark, name, same, named, rfl⟩ := spells_cons_iff.mp spells
  obtain rfl := (sameLetter_mark (by decide)).mp same
  have once := named.not_mem foreign
  obtain ⟨c, rest, first, -, rfl⟩ := spells_cons_iff.mp named
  exact ⟨c, rest, rfl, first, once⟩

theorem endsOnce_of_isTag {literal : String}
    (noEnd : ∀ letter ∈ literal.toList, sameLetter letter '>' = false)
    (isTag : IsTag literal m) :
    EndsOnce m := by
  obtain ⟨o, rest, rfl, spells, inner, rfl, free⟩ := isTag
  refine ⟨o ++ inner, (List.append_assoc ..).symm, fun member => ?_⟩
  rcases List.mem_append.mp member with early | late
  · exact spells.not_mem noEnd early
  · exact free late

end Markup
end SeoAudit
