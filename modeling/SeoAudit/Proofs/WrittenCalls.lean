import SeoAudit.Parameters.Extract
import SeoAudit.Proofs.LeftmostFinds

/-! Calls of the generator that are written out, and what is read off them. A call has
texts, lists of objects and objects as fields, in any order. Wherever it stands behind a
text without the generator's name, exactly its fields are found. -/
namespace SeoAudit
open Text NamedField

inductive CallField where
  | text (name : Text) (quote : CodePoint) (value : Text)
  | collection (name : Text) (size : Nat)
  | flag (name : Text)
deriving DecidableEq

namespace CallField

def textNames : List Text := ["title", "description", "image"]

def fieldNames : List Text := textNames ++ Parameters.collectionNames ++ Parameters.flagNames

def object : Text := "\x7b a: 1 \x7d"

def name : CallField → Text
  | text name _ _ => name
  | collection name _ => name
  | flag name => name

def value : CallField → Text
  | text _ quote value => quote :: (value ++ [quote])
  | collection _ size => "[" ++ joined ", " (List.replicate size object) ++ "]"
  | flag _ => object

def written (f : CallField) : Text := f.name ++ ": " ++ f.value

/-- A quoted text holds no quote, no colon and no closing brace; a list has an object. -/
def WellFormed : CallField → Prop
  | text name quote value =>
    name ∈ textNames ∧ isQuote quote ∧ ∀ c ∈ value, !isQuote c ∧ c ≠ ':' ∧
      c ≠ '\x7d'
  | collection name size => name ∈ Parameters.collectionNames ∧ 0 < size
  | flag name => name ∈ Parameters.flagNames

instance (f : CallField) : Decidable f.WellFormed :=
  match f with
  | text _ _ value => inferInstanceAs (Decidable (_ ∧ _ ∧ ∀ c ∈ value, _))
  | collection _ _ => inferInstanceAs (Decidable (_ ∧ _))
  | flag _ => inferInstanceAs (Decidable (_ ∈ _))

def text? (name : Text) : CallField → Option Text
  | text n _ value => if n = name then some value else none
  | _ => none

def size? (name : Text) : CallField → Option Nat
  | collection n size => if n = name then some size else none
  | _ => none

end CallField

structure WrittenCall where
  fields : List CallField
  wellFormed : ∀ f ∈ fields, f.WellFormed

namespace WrittenCall

def block (call : WrittenCall) : Text :=
  " " ++ joined ", " (call.fields.map CallField.written) ++ " "

def text (call : WrittenCall) : Text := Parameters.generatorName ++ "(\x7b" ++ call.block ++ "\x7d)"

/-- The parameters of a call: its texts, the sizes of its lists, and the names of its
objects, in the order in which they are looked for. Of two fields with one name the first
would count. -/
def parameters (call : WrittenCall) : Parameters where
  title := call.fields.findSome? (CallField.text? "title")
  description := call.fields.findSome? (CallField.text? "description")
  image := call.fields.findSome? (CallField.text? "image")
  collections := Parameters.collectionNames.filterMap fun name =>
    (call.fields.findSome? (CallField.size? name)).map fun (size : Nat) => (name, (size : Int))
  flags := Parameters.flagNames.filter fun name => .flag name ∈ call.fields

end WrittenCall

namespace CallField

def constants : List Text := [" ", ", ", "[", "]", object]

theorem eq_of_isSuffix : ∀ n ∈ fieldNames, ∀ m ∈ fieldNames, n <:+ m → n = m := by
  decide +kernel

theorem not_mem_name : ∀ n ∈ fieldNames, ∀ c ∈ n, c ≠ ':' ∧ c ≠ '\x7d' := by
  decide +kernel

theorem not_mem_key :
    ∀ n ∈ fieldNames, ∀ c ∈ (n ++ ":" : Text), c ≠ ' ' ∧ !isQuote c := by
  decide +kernel

theorem constants_apart : ∀ n ∈ fieldNames, ∀ w ∈ constants,
    ¬ (n ++ ":" : Text) <:+: w ∧ ∀ c ∈ w.getLast?, c ∉ (n ++ ":" : Text) := by
  decide +kernel

variable {β : Type} {r : Text → Option β} {n : Text} {f : CallField} {fields : List CallField}

theorem name_mem (wf : f.WellFormed) : f.name ∈ fieldNames := by
  cases f with
  | text name quote value => simp [fieldNames, CallField.name, wf.1]
  | collection name size => simp [fieldNames, CallField.name, wf.1]
  | flag name => simp [fieldNames, CallField.name, show name ∈ _ from wf]

theorem mem_value_text {name value : Text} {quote c : CodePoint}
    (wf : (text name quote value).WellFormed) (member : c ∈ (text name quote value).value) :
    c ≠ ':' ∧ c ≠ '\x7d' := by
  obtain ⟨-, isQ, free⟩ := wf
  simp only [CallField.value, List.mem_cons, List.mem_append, List.not_mem_nil, or_false] at member
  have quotes : isQuote c → c ≠ ':' ∧ c ≠ '\x7d' := by
    intro isQ
    constructor
    all_goals
      rintro rfl
      exact absurd isQ (by decide)
  rcases member with rfl | member | rfl
  · exact quotes isQ
  · exact (free c member).2
  · exact quotes isQ

section Skips
variable (named : n ∈ fieldNames) (begins : BeginsWith (n ++ ":") r)
include named begins

theorem skips_constant {w : Text} (member : w ∈ constants) (u : Text) : Skips r w u :=
  have apart := constants_apart n named w member
  begins.skips apart.1 apart.2 u

theorem skips_value (wf : f.WellFormed) (u : Text) : Skips r f.value u := by
  cases f with
  | text name quote value =>
    refine begins.skips (fun occurs => ?_) (fun c last => ?_) u
    · have colon : .char ':' ∈ (text name quote value).value :=
        occurs.subset (List.mem_append_right n (by decide))
      exact (mem_value_text wf colon).1 rfl
    · rw [CallField.value, ← List.cons_append, List.getLast?_concat] at last
      intro member
      have apart := (not_mem_key n named c member).2
      rw [← Option.mem_some_iff.mp last, wf.2.1] at apart
      cases apart
  | collection name size =>
    have objects (x : Text) : Skips r (joined ", " (List.replicate size object)) x :=
      .joined (P := fun _ => True) (fun _ => trivial)
        (fun x => skips_constant named begins (by decide) x)
        (fun t member x _ => List.eq_of_mem_replicate member ▸
          skips_constant named begins (by decide) x) trivial
    exact .append (.append (skips_constant named begins (by decide) _) (objects _))
      (skips_constant named begins (by decide) u)
  | flag name => exact skips_constant named begins (show object ∈ constants by decide) u

theorem skips_written (wf : f.WellFormed) (other : f.name ≠ n) (u : Text) :
    Skips r f.written u := by
  have noColon : ∀ m ∈ fieldNames, .char ':' ∉ m := fun m named member =>
    (not_mem_name m named _ member).1 rfl
  refine .append (begins.skips (fun occurs => ?_) (fun c last => ?_) _)
    (skips_value named begins wf u)
  · rcases infix_concat_split (noColon n named) occurs with ends | inside | behind_
    · exact other (eq_of_isSuffix n named _ (name_mem wf) ends).symm
    · exact noColon _ (name_mem wf) (inside.subset (by simp))
    · exact absurd (behind_.subset (List.mem_append_right n List.mem_cons_self)) (by decide)
  · have blank : (f.name ++ ": ").getLast? = some (.char ' ') := by
      rw [List.getLast?_append]
      rfl
    rw [blank] at last
    intro member
    exact (not_mem_key n named c member).1 (Option.mem_some_iff.mp last).symm

end Skips

/-- The first find in a call is what is read off the first field of the name. -/
theorem findFirst_joined {r : Recogniser β} {read : CallField → Option β}
    (named : n ∈ fieldNames) (begins : BeginsWith (n ++ ":") r)
    (wf : ∀ f ∈ fields, f.WellFormed) (reads : ∀ f ∈ fields, f.name = n →
      ∃ b, read f = some b ∧ ∀ u, r (f.written ++ u) = some (b, u))
    (others : ∀ f : CallField, f.name ≠ n → read f = none) :
    (findFirst r (joined ", " (fields.map written) ++ " ")).map (·.1) = fields.findSome? read := by
  have blank (u : Text) : Skips r " " u := skips_constant named begins (by decide) u
  have nothing : findFirst r [] = none :=
    begins.findFirst_eq_none (by simp [ofString, ofChars])
  induction fields with
  | nil =>
    have skipped := (blank []).findFirst_append
    rw [List.append_nil, nothing] at skipped
    simp only [List.map_nil, joined, List.intercalate_nil, List.nil_append, skipped]
    rfl
  | cons f fs ih =>
    have ih := ih (fun g member => wf g (.tail _ member)) fun g member => reads g (.tail _ member)
    by_cases same : f.name = n
    · obtain ⟨b, value, here⟩ := reads f (.head _) same
      obtain ⟨rest, text⟩ := joined_cons_append ", " f.written (fs.map written) " "
      rw [List.map_cons, text, findFirst_of_some (here rest), List.findSome?_cons, value]
      rfl
    · have skips (u : Text) : Skips r f.written u :=
        skips_written named begins (wf f (.head _)) same u
      rw [List.findSome?_cons, others f same, ← ih]
      cases fs with
      | nil =>
        simp only [List.map_cons, List.map_nil, joined, List.intercalate_singleton,
          List.intercalate_nil, List.nil_append, (skips _).findFirst_append]
      | cons g fs =>
        have between (u : Text) : Skips r ", " u := skips_constant named begins (by decide) u
        simp only [List.map_cons, joined, List.intercalate_cons_cons, List.append_assoc,
          (skips _).findFirst_append, (between _).findFirst_append]

theorem start_written (wf : f.WellFormed) (u : Text) :
    start f.name (f.written ++ u) = some (f.value ++ u) := by
  have blank : CodePoint.isBlank ' ' := by decide
  have notBlank : ∃ c cs, f.value = c :: cs ∧ ¬ c.isBlank := by
    cases f with
    | text name quote value =>
      have visible := isBlank_eq_false_of_isQuote wf.2.1
      exact ⟨quote, _, rfl, by simp [visible]⟩
    | collection name size => exact ⟨'[', _, rfl, by decide⟩
    | flag name => exact ⟨'\x7b', _, rfl, by decide⟩
  obtain ⟨c, cs, value, visible⟩ := notBlank
  rw [written, List.append_assoc, start_named, value, skipBlanks]
  show some (List.dropWhile CodePoint.isBlank (.char ' ' :: c :: (cs ++ u))) = _
  rw [List.dropWhile_cons_of_pos blank, List.dropWhile_cons_of_neg visible]
  rfl

theorem start_written_bind (wf : f.WellFormed) (r : Text → Option β) (u : Text) :
    (start f.name (f.written ++ u) >>= r) = r (f.value ++ u) := by
  rw [start_written wf]
  rfl

theorem text_written {name value : Text} {quote : CodePoint}
    (wf : (text name quote value).WellFormed) (u : Text) :
    NamedField.text name ((text name quote value).written ++ u) = some (value, u) := by
  have shape : (text name quote value).value ++ u = quote :: (value ++ quote :: u) := by
    simp [CallField.value]
  have free : ∀ c ∈ value, !isQuote c := fun c member => (wf.2.2 c member).1
  have opened : NamedField.text name ((text name quote value).written ++ u) =
      quoted ((text name quote value).value ++ u) :=
    start_written_bind wf quoted u
  rw [opened, shape, quoted_of_free wf.2.1 wf.2.1 free]

theorem objects_free (size : Nat) : .char ']' ∉ joined ", " (List.replicate size object) := by
  intro member
  rcases mem_of_mem_intercalate member with separator | ⟨t, listed, inside⟩
  · exact absurd separator (by decide)
  · rw [List.eq_of_mem_replicate listed] at inside
    exact absurd inside (by decide)

theorem count_objects (size : Nat) :
    (joined ", " (List.replicate size object)).count (.char '\x7b') = size := by
  induction size with
  | zero => rfl
  | succ k ih =>
    cases k with
    | zero => decide
    | succ k =>
      rw [List.replicate_succ, List.replicate_succ, joined, List.intercalate_cons_cons,
        ← List.replicate_succ, List.count_append, List.count_append]
      have item : object.count (.char '\x7b') = 1 := by decide
      have between : (", " : Text).count (.char '\x7b') = 0 := by decide
      rw [item, between, ← joined, ih]
      omega

theorem collection_written {name : Text} {size : Nat} (wf : (collection name size).WellFormed)
    (u : Text) :
    (start name ((collection name size).written ++ u) >>= enclosed '[' ']') =
      some (strip (joined ", " (List.replicate size object)), u) := by
  have shape : (collection name size).value ++ u =
      .char '[' :: (joined ", " (List.replicate size object) ++ .char ']' :: u) := by
    simp only [CallField.value, List.append_assoc]
    rfl
  have opened := start_written_bind wf (enclosed '[' ']') u
  rw [shape, enclosed_of_free '[' (objects_free size)] at opened
  exact opened

theorem flag_written {name : Text} (wf : (flag name).WellFormed) (u : Text) :
    (start name ((flag name).written ++ u) >>= enclosed '\x7b' '\x7d') =
      some (("a: 1" : Text), u) :=
  start_written_bind wf (enclosed '\x7b' '\x7d') u

theorem callEnd_beginsWith : BeginsWith "\x7d" Parameters.callEnd := by
  intro s differs
  cases s with
  | nil => rfl
  | cons c s =>
    have other : c ≠ .char '\x7d' := by
      rintro rfl
      exact differs ⟨s, rfl⟩
    simp [Parameters.callEnd, behind, other]

theorem skips_callEnd_of_free {w : Text} (free : .char '\x7d' ∉ w) (u : Text) :
    Skips Parameters.callEnd w u := by
  refine callEnd_beginsWith.skips (fun occurs => free (occurs.subset (by decide))) ?_ u
  intro c last member
  rw [List.mem_singleton.mp (show c ∈ [CodePoint.char '\x7d'] from member)] at last
  exact free (List.mem_of_getLast? last)

def Continues (u : Text) : Prop := behindBlanks ')' u = none

theorem object_skips_callEnd {u : Text} (continues : Continues u) :
    Skips Parameters.callEnd object u :=
  .append (w := "\x7b a: 1 ") (skips_callEnd_of_free (by decide) _) ⟨continues, trivial⟩

theorem value_skips_callEnd (wf : f.WellFormed) {u : Text} (continues : Continues u) :
    Skips Parameters.callEnd f.value u := by
  cases f with
  | text name quote value =>
    exact skips_callEnd_of_free (fun member => (mem_value_text wf member).2 rfl) u
  | collection name size =>
    refine .append (.append (skips_callEnd_of_free (by decide) _) ?_)
      (skips_callEnd_of_free (by decide) u)
    exact .joined (P := Continues) (fun _ => rfl) (skips_callEnd_of_free (by decide))
      (fun t member x continues => List.eq_of_mem_replicate member ▸
        object_skips_callEnd continues) rfl
  | flag name => exact object_skips_callEnd continues

theorem written_skips_callEnd (wf : f.WellFormed) {u : Text} (continues : Continues u) :
    Skips Parameters.callEnd f.written u := by
  refine .append (skips_callEnd_of_free (fun member => ?_) _) (value_skips_callEnd wf continues)
  rcases List.mem_append.mp member with inName | inColon
  · exact (not_mem_name f.name (name_mem wf) _ inName).2 rfl
  · exact absurd inColon (by decide)

end CallField

namespace WrittenCall
open CallField Parameters
variable (call : WrittenCall)

theorem call_text (after : Text) :
    Parameters.call (call.text ++ after) = some (call.block, after) := by
  have fields :
      Skips callEnd (joined ", " (call.fields.map written)) (" " ++ ("\x7d)" ++ after)) := by
    refine .joined (P := Continues) (fun _ => rfl) (skips_callEnd_of_free (by decide)) ?_ rfl
    intro t member x continues
    obtain ⟨f, listed, rfl⟩ := List.mem_map.mp member
    exact written_skips_callEnd (call.wellFormed f listed) continues
  have skips : Skips callEnd call.block ("\x7d)" ++ after) :=
    .append (.append (skips_callEnd_of_free (by decide) _) fields)
      (skips_callEnd_of_free (by decide) _)
  have ends : upTo callEnd (call.block ++ ("\x7d)" ++ after)) = some (call.block, after) :=
    skips.upTo_eq rfl
  have shape : call.text ++ after =
      generatorName ++ ("(\x7b" ++ (call.block ++ ("\x7d)" ++ after))) := by
    simp only [text, List.append_assoc]
  rw [Parameters.call, after?_eq_some.mpr shape]
  exact ends

theorem callBlock?_text (before after : Text) (fresh : ¬ generatorName <:+: before) :
    callBlock? (before ++ call.text ++ after) = some call.block := by
  have begins : BeginsWith generatorName Parameters.call := by
    intro s differs
    cases found : after? generatorName s with
    | none => simp [Parameters.call, found]
    | some rest => exact absurd ⟨rest, (after?_eq_some.mp found).symm⟩ differs
  have borderless : Borderless generatorName := by
    unfold Borderless
    decide
  have here := call.call_text after
  rw [text, List.append_assoc, List.append_assoc, List.append_assoc] at here
  rw [callBlock?, text, List.append_assoc, List.append_assoc, List.append_assoc, List.append_assoc,
    (begins.skips_of_borderless borderless fresh _).findFirst_append, findFirst_of_some here]
  rfl

theorem findFirst_block {β : Type} {n : Text} {r : Recogniser β} {read : CallField → Option β}
    (named : n ∈ fieldNames) (begins : BeginsWith (n ++ ":") r)
    (reads : ∀ f ∈ call.fields, f.name = n →
      ∃ b, read f = some b ∧ ∀ u, r (f.written ++ u) = some (b, u))
    (others : ∀ f : CallField, f.name ≠ n → read f = none) :
    (findFirst r call.block).map (·.1) = call.fields.findSome? read := by
  have blank (u : Text) : Skips r " " u := skips_constant named begins (by decide) u
  rw [block, List.append_assoc, (blank _).findFirst_append]
  exact findFirst_joined named begins call.wellFormed reads others

theorem names_apart : ∀ n ∈ fieldNames,
    (n ∈ textNames → n ∉ collectionNames ∧ n ∉ flagNames) ∧
    (n ∈ collectionNames → n ∉ flagNames) := by
  decide +kernel

theorem text?_block {n : Text} (isText : n ∈ textNames) :
    Parameters.text? n call.block = call.fields.findSome? (CallField.text? n) := by
  have named : n ∈ fieldNames := by simp [fieldNames, isText]
  refine call.findFirst_block named (start_beginsWith n quoted) (fun f listed same => ?_)
    fun f differs => ?_
  · have wf := call.wellFormed f listed
    subst same
    cases f with
    | text name quote value => exact ⟨value, if_pos rfl, text_written wf⟩
    | collection name size => exact absurd wf.1 ((names_apart _ named).1 isText).1
    | flag name => exact absurd wf ((names_apart _ named).1 isText).2
  · cases f with
    | text name quote value => exact if_neg differs
    | collection name size => rfl
    | flag name => rfl

theorem content?_collection {n : Text} (isCollection : n ∈ collectionNames) :
    content? n '[' ']' call.block = (call.fields.findSome? (size? n)).map fun size =>
      strip (joined ", " (List.replicate size object)) := by
  have named : n ∈ fieldNames := by simp [fieldNames, isCollection]
  rw [List.map_findSome?]
  refine call.findFirst_block named (start_beginsWith n _) (fun f listed same => ?_)
    fun f differs => ?_
  · have wf := call.wellFormed f listed
    subst same
    cases f with
    | text name quote value => exact absurd isCollection ((names_apart _ named).1 wf.1).1
    | collection name size =>
      exact ⟨_, congrArg (Option.map _) (if_pos rfl), collection_written wf⟩
    | flag name => exact absurd wf ((names_apart _ named).2 isCollection)
  · cases f with
    | text name quote value => rfl
    | collection name size => exact congrArg (Option.map _) (if_neg differs)
    | flag name => rfl

theorem content?_flag {n : Text} (isFlag : n ∈ flagNames) :
    content? n '\x7b' '\x7d' call.block =
      call.fields.findSome? fun f => if f = .flag n then some ("a: 1" : Text) else none := by
  have named : n ∈ fieldNames := by simp [fieldNames, isFlag]
  refine call.findFirst_block named (start_beginsWith n _) (fun f listed same => ?_)
    fun f differs => if_neg ?_
  · have wf := call.wellFormed f listed
    subst same
    cases f with
    | text name quote value => exact absurd isFlag ((names_apart _ named).1 wf.1).2
    | collection name size => exact absurd isFlag ((names_apart _ named).2 wf.1)
    | flag name => exact ⟨_, if_pos rfl, flag_written wf⟩
  · rintro rfl
    exact differs rfl

theorem count_strip (s : Text) : (strip s).count (.char '\x7b') = s.count (.char '\x7b') := by
  have skipped (t : Text) :
      (t.dropWhile CodePoint.isBlank).count (.char '\x7b') = t.count (.char '\x7b') := by
    induction t with
    | nil => rfl
    | cons c t ih =>
      by_cases blank : c.isBlank
      · have other : c ≠ .char '\x7b' := by
          rintro rfl
          exact absurd blank (by decide)
        rw [List.dropWhile_cons_of_pos blank, ih, List.count_cons_of_ne other]
      · rw [List.dropWhile_cons_of_neg blank]
  simp only [strip, stripEnd, dropEnd, skipBlanks, List.count_reverse, skipped]

theorem collection?_block {n : Text} (isCollection : n ∈ collectionNames) :
    collection? call.block n =
      (call.fields.findSome? (size? n)).map fun (size : Nat) => (n, (size : Int)) := by
  unfold collection?
  rw [call.content?_collection isCollection]
  cases found : call.fields.findSome? (size? n) with
  | none => rfl
  | some size =>
    obtain ⟨f, listed, read⟩ := List.exists_of_findSome?_eq_some found
    have positive : 0 < size := by
      have wf := call.wellFormed f listed
      cases f with
      | text name quote value => cases read
      | flag name => cases read
      | collection name k =>
        simp only [size?, Option.ite_none_right_eq_some, Option.some.injEq] at read
        exact read.2 ▸ wf.2
    have counted := (count_strip _).trans (count_objects size)
    simp only [Option.map_some]
    generalize strip _ = content at counted ⊢
    cases content with
    | nil => exact absurd counted (by simp; omega)
    | cons c cs =>
      have counted_ : Parameters.sizeOf (c :: cs) = size := by
        rw [Parameters.sizeOf, counted]
        cases size with
        | zero => omega
        | succ k => rfl
      exact congrArg (fun k => some (n, k)) counted_

theorem isSet_block {n : Text} (isFlag : n ∈ flagNames) :
    isSet call.block n = decide (.flag n ∈ call.fields) := by
  unfold isSet
  rw [call.content?_flag isFlag]
  generalize call.fields = fields
  induction fields with
  | nil => rfl
  | cons f fs ih =>
    by_cases same : f = .flag n
    · have member : .flag n ∈ f :: fs := same ▸ List.mem_cons_self
      rw [List.findSome?_cons, if_pos same, decide_eq_true member]
      rfl
    · rw [List.findSome?_cons, if_neg same]
      simp [ih, Ne.symm same]

theorem ofBlock_block : ofBlock call.block = call.parameters := by
  have collections : collectionNames.filterMap (collection? call.block) = _ :=
    List.filterMap_congr fun n listed => call.collection?_block listed
  have flags : flagNames.filter (isSet call.block) = _ :=
    List.filter_congr fun n listed => call.isSet_block listed
  rw [ofBlock, call.text?_block (by decide), call.text?_block (by decide),
    call.text?_block (by decide), collections, flags]
  rfl

/-- Behind a text without the generator's name the parameters of a written call are read
off it, whatever follows. -/
theorem written_call_is_recovered (before after : Text) (fresh : ¬ generatorName <:+: before) :
    ofText? (before ++ call.text ++ after) = some call.parameters := by
  rw [ofText?, call.callBlock?_text before after fresh, Option.map_some, call.ofBlock_block]

def advert : WrittenCall where
  fields := [.flag "awards", .text "image" '"' "/oak (1).png", .collection "faqs" 2, .flag "grant"]
  wellFormed := by decide

theorem advert_recovers :
    ¬ generatorName <:+: ("const page = " : Text) ∧
    ofText? ("const page = " ++ advert.text ++ " // title: \"none\"") = some
      { image := some "/oak (1).png", collections := [("faqs", 2)],
        flags := ["grant", "awards"] } := by
  have fresh : ¬ generatorName <:+: ("const page = " : Text) := by decide +kernel
  have parameters : advert.parameters =
      { image := some "/oak (1).png", collections := [("faqs", 2)],
        flags := ["grant", "awards"] } := by
    decide +kernel
  have recovers := advert.written_call_is_recovered "const page = " " // title: \"none\"" fresh
  rw [parameters] at recovers
  exact ⟨fresh, recovers⟩

end WrittenCall
end SeoAudit
