import Mathlib.Data.List.TakeWhile
import SeoAudit.Proofs.Lists
import SeoAudit.Text.NamedField

/-! Finds at the leftmost place. A recogniser skips a text in front of another one when it
succeeds at no place within it; the search then goes on behind it. What begins with a
literal skips every text that neither holds the literal nor ends in a part of it, and a text
is taken apart at the first place of a literal in one way. What is found is a part of the text,
and of several finds each begins behind the one before. Behind blanks a text is the same
however many of them there are. -/
namespace SeoAudit

theorem infix_concat_split {α : Type} {key s t : List α} {c : α} (free : c ∉ key)
    (occurs : key ++ [c] <:+: s ++ c :: t) :
    key <:+ s ∨ key ++ [c] <:+: s ∨ key ++ [c] <:+: t := by
  obtain ⟨x, y, same⟩ := occurs
  have same : (x ++ key) ++ c :: y = s ++ c :: t := by simpa using same
  rcases List.append_eq_append_iff.mp same with ⟨a, rfl, rest⟩ | ⟨b, before, rest⟩
  · cases a with
    | nil => exact .inl ⟨x, by simp⟩
    | cons d a =>
      obtain ⟨rfl, -⟩ := List.cons.inj rest
      exact .inr (.inl ⟨x, a, by simp⟩)
  · cases b with
    | nil => exact .inl ⟨x, by simpa using before⟩
    | cons d b =>
      obtain ⟨rfl, rfl⟩ := List.cons.inj rest
      rcases List.append_eq_append_iff.mp before with ⟨a, rfl, inKey⟩ | ⟨a, rfl, inKey⟩
      · rw [inKey] at free
        simp at free
      · cases a with
        | nil =>
          rw [← show c :: b = key from inKey] at free
          simp at free
        | cons d a =>
          obtain ⟨rfl, rfl⟩ := List.cons.inj inKey
          exact .inr (.inr ⟨a, y, by simp⟩)

namespace Text
variable {α : Type} {r : Text → Option α} {literal w v u : Text}

/-- The recogniser succeeds nowhere within a text that another one follows. -/
def Skips (r : Text → Option α) : (text following : Text) → Prop
  | [], _ => True
  | c :: cs, u => r (c :: (cs ++ u)) = none ∧ Skips r cs u

theorem Skips.append (first : Skips r w (v ++ u)) (second : Skips r v u) :
    Skips r (w ++ v) u := by
  induction w with
  | nil => exact second
  | cons c w ih =>
    rw [List.cons_append, Skips, List.append_assoc]
    exact ⟨first.1, ih first.2⟩

theorem Skips.upTo_append (skips : Skips r w u) :
    upTo r (w ++ u) = (upTo r u).map fun (before, a) => (w ++ before, a) := by
  induction w with
  | nil => simp
  | cons c w ih =>
    rw [List.cons_append, upTo, skips.1, ih skips.2]
    simp [Function.comp_def]

theorem Skips.findFirst_append (skips : Skips r w u) : findFirst r (w ++ u) = findFirst r u := by
  rw [findFirst, skips.upTo_append]
  simp [findFirst, Function.comp_def]

theorem upTo_of_some {a : α} (here : r w = some a) : upTo r w = some ([], a) := by
  cases w <;> simp [upTo, here]

theorem Skips.upTo_eq {a : α} (skips : Skips r w u) (here : r u = some a) :
    upTo r (w ++ u) = some (w, a) := by
  rw [skips.upTo_append, upTo_of_some here]
  simp

theorem findFirst_of_some {a : α} (here : r w = some a) : findFirst r w = some a := by
  rw [findFirst, upTo_of_some here]
  rfl

theorem skips_iff : Skips r w u ↔ ∀ n < w.length, r ((w ++ u).drop n) = none := by
  induction w with
  | nil => simp [Skips]
  | cons c w ih =>
    rw [Skips, ih]
    constructor
    · rintro ⟨here, later⟩ n inside
      cases n with
      | zero => exact here
      | succ n => exact later n (Nat.lt_of_succ_lt_succ inside)
    · intro nowhere
      exact ⟨nowhere 0 (Nat.succ_pos _), fun n inside =>
        nowhere (n + 1) (Nat.succ_lt_succ inside)⟩

theorem eq_append_of_upTo {before : Text} {a : α} (found : upTo r w = some (before, a)) :
    ∃ u, w = before ++ u ∧ Skips r before u ∧ r u = some a := by
  induction w generalizing before with
  | nil =>
    obtain ⟨b, here, same⟩ := Option.map_eq_some_iff.mp found
    obtain ⟨rfl, rfl⟩ := Prod.mk.inj same
    exact ⟨[], rfl, trivial, here⟩
  | cons c w ih =>
    rw [upTo] at found
    split at found
    · cases found
      exact ⟨c :: w, rfl, trivial, ‹_›⟩
    · obtain ⟨⟨later, b⟩, behind, same⟩ := Option.map_eq_some_iff.mp found
      obtain ⟨rfl, rfl⟩ := Prod.mk.inj same
      obtain ⟨u, rfl, skips, here⟩ := ih behind
      exact ⟨u, rfl, ⟨‹_›, skips⟩, here⟩

theorem upTo_eq_some_iff {before : Text} {a : α} :
    upTo r w = some (before, a) ↔ ∃ u, w = before ++ u ∧ Skips r before u ∧
      r u = some a := by
  constructor
  · exact eq_append_of_upTo
  · rintro ⟨u, rfl, skips, here⟩
    exact skips.upTo_eq here

theorem upTo_eq_none_iff : upTo r w = none ↔ ∀ n, r (w.drop n) = none := by
  induction w with
  | nil => simp [upTo]
  | cons c w ih =>
    rw [upTo]
    constructor
    · intro nowhere n
      split at nowhere
      · cases nowhere
      · cases n with
        | zero => assumption
        | succ n => exact ih.mp (Option.map_eq_none_iff.mp nowhere) n
    · intro nowhere
      have here : r (c :: w) = none := nowhere 0
      rw [here]
      exact Option.map_eq_none_iff.mpr (ih.mpr fun n => nowhere (n + 1))

theorem suffix_of_findFirst {a : α} (found : findFirst r w = some a) :
    ∃ u, u <:+ w ∧ r u = some a := by
  obtain ⟨⟨before, b⟩, place, rfl⟩ := Option.map_eq_some_iff.mp found
  obtain ⟨u, rfl, -, here⟩ := eq_append_of_upTo place
  exact ⟨u, List.suffix_append before u, here⟩

/-- A recogniser of texts that begin with a literal. -/
def BeginsWith (literal : Text) (r : Text → Option α) : Prop :=
  ∀ s, ¬ literal <+: s → r s = none

theorem BeginsWith.skips (begins : BeginsWith literal r) (free : ¬ literal <:+: w)
    (ends : ∀ c ∈ w.getLast?, c ∉ literal) (u : Text) : Skips r w u := by
  induction w with
  | nil => trivial
  | cons c w ih =>
    refine ⟨begins _ fun occurs => ?_, ih (mt List.infix_cons free) fun d last => ends d ?_⟩
    · rcases List.prefix_or_prefix_of_prefix occurs
        (List.prefix_append (c :: w) u) with whole | part
      · exact free whole.isInfix
      · have last := List.getLast_mem (List.cons_ne_nil c w)
        exact ends _ (List.getLast?_eq_getLast_of_ne_nil _) (part.subset last)
    · rw [List.getLast?_cons]
      simp_all

/-- No proper part at the end of a literal is also at its beginning. -/
def Borderless (literal : Text) : Prop :=
  ∀ k < literal.length, 0 < k → ¬ literal.drop k <+: literal

theorem BeginsWith.skips_of_borderless (begins : BeginsWith literal r)
    (borderless : Borderless literal) (free : ¬ literal <:+: w) (u : Text) :
    Skips r w (literal ++ u) := by
  induction w with
  | nil => trivial
  | cons c w ih =>
    refine ⟨begins _ fun occurs => ?_, ih (mt List.infix_cons free)⟩
    rcases List.prefix_or_prefix_of_prefix occurs (List.prefix_append (c :: w) _) with
      whole | ⟨border, same⟩
    · exact free whole.isInfix
    · have length := congrArg List.length same
      simp only [List.length_append, List.length_cons] at length
      have nonempty : border ≠ [] := by
        rintro rfl
        exact free (by simp [← same])
      have again : border <+: literal ++ u := by
        nth_rewrite 1 [← same] at occurs
        exact (List.prefix_append_right_inj (c :: w)).mp occurs
      have isPrefix : border <+: literal :=
        List.prefix_of_prefix_length_le again (List.prefix_append _ _) (by omega)
      have dropped : literal.drop (w.length + 1) = border := by
        rw [← same]
        exact List.drop_left
      have some := List.length_pos_iff.mpr nonempty
      exact borderless (w.length + 1) (by omega) (by omega) (dropped ▸ isPrefix)

theorem BeginsWith.skips_last (begins : BeginsWith literal r) (free : ¬ literal <:+: w) :
    Skips r w [] := by
  induction w with
  | nil => trivial
  | cons c w ih =>
    refine ⟨begins _ fun occurs => free ?_, ih (mt List.infix_cons free)⟩
    rw [List.append_nil] at occurs
    exact occurs.isInfix

theorem BeginsWith.findFirst_eq_none (begins : BeginsWith literal r) (free : ¬ literal <:+: w) :
    findFirst r w = none := by
  rw [findFirst, Option.map_eq_none_iff, upTo_eq_none_iff]
  intro n
  exact begins _ fun occurs => free (occurs.isInfix.trans (List.drop_suffix n w).isInfix)

section Literal

theorem after?_eq_none_iff : after? literal w = none ↔ ¬ literal <+: w := by
  rw [Option.eq_none_iff_forall_ne_some]
  constructor
  · rintro nothing ⟨u, same⟩
    exact nothing u (after?_eq_some.mpr same.symm)
  · intro differs u found
    exact differs ⟨u, (after?_eq_some.mp found).symm⟩

theorem after?_beginsWith (literal : Text) : BeginsWith literal (after? literal) :=
  fun _ => after?_eq_none_iff.mpr

theorem upTo_after?_eq_none_iff : upTo (after? literal) w = none ↔ ¬ literal <:+: w := by
  simp only [upTo_eq_none_iff, after?_eq_none_iff]
  constructor
  · rintro nowhere ⟨v, u, rfl⟩
    refine nowhere v.length ⟨u, ?_⟩
    rw [List.append_assoc, List.drop_left]
  · intro free n leads
    exact free (leads.isInfix.trans (List.drop_suffix n w).isInfix)

variable (borderless : Borderless literal)
include borderless

theorem suffix_of_first {x y : Text} (free : ¬ literal <:+: v)
    (same : v ++ (literal ++ u) = x ++ (literal ++ y)) : y <:+ u := by
  have skips := (after?_beginsWith literal).skips_of_borderless borderless free u
  have reached : v.length ≤ x.length := by
    by_contra short
    have nowhere := skips_iff.mp skips x.length (Nat.lt_of_not_le short)
    rw [same, List.drop_left, after?_eq_none_iff] at nowhere
    exact nowhere (List.prefix_append literal y)
  obtain ⟨z, rfl⟩ := List.prefix_of_prefix_length_le ⟨_, rfl⟩ ⟨_, same.symm⟩ reached
  rw [List.append_assoc, List.append_cancel_left_eq] at same
  have whole : y <:+ literal ++ u := same ▸ ⟨z ++ literal, List.append_assoc ..⟩
  have lengths := congrArg List.length same
  simp only [List.length_append] at lengths
  exact List.suffix_of_suffix_length_le whole (List.suffix_append literal u) (by omega)

variable (filled : literal ≠ [])
include filled

theorem upTo_after?_eq_some_iff :
    upTo (after? literal) w = some (v, u) ↔ w = v ++ (literal ++ u) ∧ ¬ literal <:+: v := by
  rw [upTo_eq_some_iff]
  constructor
  · rintro ⟨s, rfl, skips, here⟩
    obtain rfl := after?_eq_some.mp here
    refine ⟨rfl, ?_⟩
    rintro ⟨x, y, rfl⟩
    have inside : x.length < (x ++ literal ++ y).length := by
      have some := List.length_pos_iff.mpr filled
      simp only [List.length_append]
      omega
    have nowhere := after?_eq_none_iff.mp (skips_iff.mp skips x.length inside)
    rw [List.append_assoc, List.append_assoc, List.drop_left] at nowhere
    exact nowhere (List.prefix_append literal _)
  · rintro ⟨rfl, free⟩
    exact ⟨_, rfl, (after?_beginsWith literal).skips_of_borderless borderless free u,
      after?_eq_some.mpr rfl⟩

theorem exists_first_of_infix (occurs : literal <:+: w) :
    ∃ v u, w = v ++ (literal ++ u) ∧ ¬ literal <:+: v := by
  cases found : upTo (after? literal) w with
  | none => exact absurd occurs (upTo_after?_eq_none_iff.mp found)
  | some parts => exact ⟨parts.1, parts.2, (upTo_after?_eq_some_iff borderless filled).mp found⟩

end Literal

section FindAll
variable {β : Type} {find : Recogniser β}

theorem Skips.findAll_append (skips : Skips find w u) : findAll find (w ++ u) = findAll find u := by
  unfold findAll
  induction w with
  | nil => rfl
  | cons c w ih =>
    rw [List.cons_append, findAllFrom, skips.1]
    exact ih skips.2

theorem findAllFrom_inside (find : Recogniser β) (w u : Text) :
    findAllFrom find w.length (w ++ u) = findAll find u := by
  induction w with
  | nil => rfl
  | cons c w ih => exact ih

theorem findAll_of_some {b : β} (nonempty : w ≠ []) (here : find (w ++ u) = some (b, u)) :
    findAll find (w ++ u) = b :: findAll find u := by
  obtain ⟨c, v, rfl⟩ := List.exists_cons_of_ne_nil nonempty
  rw [List.cons_append] at here
  rw [findAll, List.cons_append, findAllFrom, here]
  have inside : (v ++ u).length - u.length = v.length := by
    rw [List.length_append, Nat.add_sub_cancel]
  simp only [inside, findAllFrom_inside]

end FindAll

theorem joined_cons_cons (separator s t : Text) (ts : List Text) :
    joined separator (s :: t :: ts) = s ++ (separator ++ joined separator (t :: ts)) := by
  simp [joined, List.intercalate_cons_cons]

theorem eq_joined {α : Type} {f : List α → Text} {write : α → Text} {separator : Text}
    (nothing : f [] = []) (last : ∀ a, f [a] = write a)
    (next : ∀ a b as, f (a :: b :: as) = write a ++ (separator ++ f (b :: as))) (as : List α) :
    f as = joined separator (as.map write) := by
  induction as with
  | nil => exact nothing
  | cons a as ih =>
    cases as with
    | nil => simp [last, joined]
    | cons b as =>
      rw [next, ih]
      simp only [List.map_cons, joined_cons_cons]

theorem joined_cons_append (separator t : Text) (ts : List Text) (u : Text) :
    ∃ rest, joined separator (t :: ts) ++ u = t ++ rest := by
  cases ts with
  | nil => exact ⟨u, by simp [joined]⟩
  | cons s ts =>
    exact ⟨separator ++ (joined separator (s :: ts) ++ u), by simp [joined_cons_cons]⟩

/-- Texts that are skipped where a condition holds of what follows are skipped together,
when it holds of what begins with the separator. -/
theorem Skips.joined {P : Text → Prop} {separator : Text} {ts : List Text}
    (between : ∀ x, P (separator ++ x)) (separates : ∀ x, Skips r separator x)
    (each : ∀ t ∈ ts, ∀ x, P x → Skips r t x) (follows : P u) :
    Skips r (Text.joined separator ts) u := by
  induction ts with
  | nil => trivial
  | cons t ts ih =>
    have rest := ih fun s member => each s (List.mem_cons_of_mem t member)
    cases ts with
    | nil => simpa [Text.joined] using each t List.mem_cons_self u follows
    | cons s ts =>
      rw [Text.joined, List.intercalate_cons_cons]
      refine Skips.append (Skips.append ?_ (separates _)) rest
      exact each t List.mem_cons_self _ (between _)

theorem after?_append {c : CodePoint} (member : c ∈ w) (free : c ∉ literal) :
    after? literal (w ++ u) = (after? literal w).map (· ++ u) := by
  induction literal generalizing w with
  | nil => rfl
  | cons a literal ih =>
    cases w with
    | nil => cases member
    | cons d w =>
      obtain ⟨other, free⟩ := not_or.mp (mt List.mem_cons.mpr free)
      rw [List.cons_append, after?, after?]
      split_ifs with same
      · have behind : c ∈ w := (List.mem_cons.mp member).resolve_left (same ▸ other)
        exact ih behind free
      · rfl

end Text

namespace NamedField
open Text
variable {α : Type} {name w u : Text} {c closing : CodePoint}

theorem start_named (name s : Text) :
    start name (name ++ ": " ++ s) = some (skipBlanks (" " ++ s)) := by
  have split : name ++ ": " ++ s = name ++ ":" ++ (" " ++ s) := by
    simp only [List.append_assoc]
    rfl
  rw [start, after?_eq_some.mpr split]
  rfl

theorem start_beginsWith (name : Text) (f : Text → Option α) :
    BeginsWith (name ++ ":") fun s => start name s >>= f := by
  intro s differs
  show (start name s >>= f) = none
  rw [start, after?_eq_none_iff.mpr differs]
  rfl

theorem isBlank_eq_false_of_isQuote (quote : isQuote c) : c.isBlank = false := by
  simp only [isQuote, Bool.or_eq_true, decide_eq_true_eq] at quote
  rcases quote with (rfl | rfl) | rfl <;> decide

theorem quoted_of_free (opens : isQuote c) (closes : isQuote closing)
    (free : ∀ d ∈ w, !isQuote d) :
    quoted (c :: (w ++ closing :: u)) = some (w, u) := by
  simp [quoted, opens, closes, List.dropWhile_append_of_pos free, List.takeWhile_append_of_pos free]

theorem behind_skips (free : closing ∉ w) : Skips (behind closing) w u := by
  induction w with
  | nil => trivial
  | cons d w ih =>
    simp only [List.mem_cons, not_or] at free
    exact ⟨if_neg (Ne.symm free.1), ih free.2⟩

theorem enclosed_of_free (opening : CodePoint) (free : closing ∉ w) :
    enclosed opening closing (opening :: (w ++ closing :: u)) = some (strip w, u) := by
  have ends : upTo (behind closing) (w ++ closing :: u) = some (w, u) :=
    (behind_skips free).upTo_eq (if_pos rfl)
  simp [enclosed, behind, ends]

theorem behind_eq_some_iff : behind c w = some u ↔ w = c :: u := by
  cases w with
  | nil => simp [behind]
  | cons d w =>
    rw [behind]
    split
    · simp_all
    · simp_all

def AllBlank (w : Text) : Prop := ∀ c ∈ w, c.isBlank

instance (w : Text) : Decidable (AllBlank w) := inferInstanceAs (Decidable (∀ c ∈ w, _))

theorem AllBlank.skipBlanks_append (blank : AllBlank w) (u : Text) :
    skipBlanks (w ++ u) = skipBlanks u :=
  List.dropWhile_append_of_pos blank

theorem skipBlanks_of_visible (visible : ∀ d ∈ w.head?, ¬ d.isBlank) : skipBlanks w = w := by
  cases w with
  | nil => rfl
  | cons d w => exact List.dropWhile_cons_of_neg (visible d rfl)

theorem exists_blanks (w : Text) : ∃ v, AllBlank v ∧ w = v ++ skipBlanks w :=
  ⟨w.takeWhile CodePoint.isBlank, fun _ member => List.mem_takeWhile_imp member,
    List.takeWhile_append_dropWhile.symm⟩

theorem mem_skipBlanks (member : c ∈ w) (visible : ¬ c.isBlank) : c ∈ skipBlanks w := by
  obtain ⟨v, blank, split⟩ := exists_blanks w
  rw [split] at member
  exact (List.mem_append.mp member).resolve_left fun before => visible (blank c before)

theorem skipBlanks_append (member : c ∈ w) (visible : ¬ c.isBlank) :
    skipBlanks (w ++ u) = skipBlanks w ++ u := by
  have left : skipBlanks w ≠ [] := List.ne_nil_of_mem (mem_skipBlanks member visible)
  rw [skipBlanks, List.dropWhile_append, if_neg]
  · rfl
  · simpa [skipBlanks] using left

theorem behindBlanks_eq_some_iff (visible : ¬ c.isBlank) :
    behindBlanks c w = some u ↔ ∃ v, AllBlank v ∧ w = v ++ c :: u := by
  rw [behindBlanks, behind_eq_some_iff]
  constructor
  · intro rest
    obtain ⟨v, blank, same⟩ := exists_blanks w
    exact ⟨v, blank, rest ▸ same⟩
  · rintro ⟨v, blank, rfl⟩
    rw [blank.skipBlanks_append, skipBlanks_of_visible]
    simpa using visible

theorem behindBlanks_suffix (found : behindBlanks c w = some u) : u <:+ w := by
  have blanks : Text.skipBlanks w <:+ w := List.dropWhile_suffix _
  rw [behindBlanks, behind_eq_some_iff] at found
  rw [found] at blanks
  exact (List.suffix_cons c u).trans blanks

theorem quoted_up_to (opens : isQuote c) (w u : Text) :
    ∃ rest, quoted (c :: (w ++ c :: u)) = some (w.takeWhile (!isQuote ·), rest) := by
  have inside : (w ++ c :: u).takeWhile (!isQuote ·) = w.takeWhile (!isQuote ·) := by
    induction w with
    | nil => simp [opens]
    | cons d w ih => simp [List.takeWhile_cons, ih]
  cases left : (w ++ c :: u).dropWhile (!isQuote ·) with
  | nil =>
    have plain := List.dropWhile_eq_nil_iff.mp left c (by simp)
    simp [opens] at plain
  | cons d rest => exact ⟨rest, by simp [quoted, opens, left, inside]⟩

theorem split_at_quote (left : w.dropWhile (!isQuote ·) = c :: u) :
    isQuote c ∧ w = w.takeWhile (!isQuote ·) ++ c :: u := by
  have stops := List.head?_dropWhile_not (!isQuote ·) w
  rw [left] at stops
  exact ⟨by simpa using stops, by rw [← left, List.takeWhile_append_dropWhile]⟩

theorem exists_quotes_of_text {v : Text} (found : text name w = some (v, u)) :
    ∃ t q d, isQuote q ∧ isQuote d ∧ w = t ++ q :: (v ++ d :: u) := by
  obtain ⟨s, begun, found⟩ := Option.bind_eq_some_iff.mp found
  obtain ⟨t, named, rfl⟩ := Option.map_eq_some_iff.mp begun
  rw [after?_eq_some] at named
  obtain ⟨blanks, -, split⟩ := exists_blanks t
  cases rest : skipBlanks t with
  | nil => simp [rest, quoted] at found
  | cons q s =>
    rw [rest, quoted] at found
    split_ifs at found with opens
    cases left : s.dropWhile (!isQuote ·) with
    | nil => simp [left] at found
    | cons d s' =>
      obtain ⟨closes, inside⟩ := split_at_quote left
      simp only [left, Option.some.injEq, Prod.mk.injEq] at found
      obtain ⟨rfl, rfl⟩ := found
      refine ⟨name ++ ":" ++ blanks, q, d, opens, closes, ?_⟩
      rw [named, split, rest, ← inside]
      simp only [List.append_assoc]

theorem text_within {v : Text} (found : text name w = some (v, u)) : v <:+: w := by
  obtain ⟨t, q, d, -, -, rfl⟩ := exists_quotes_of_text found
  exact ⟨t ++ [q], d :: u, by simp⟩

end NamedField
end SeoAudit
