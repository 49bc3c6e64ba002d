import SeoAudit.Proofs.LeftmostFinds
import SeoAudit.Proofs.Tables
import SeoAudit.Proofs.WrittenStrings

/-! Written arrays and objects read back, with any white space where a writer may put it. A
text reads as a value when the reader gives it in front of whatever ends a value; arrays and
objects of such texts are such texts again, one level deeper. -/
namespace SeoAudit
namespace Json
open Text

section Spaces
variable {c : CodePoint} {gap s t : Text}

theorem isSpace_iff : isSpace c ↔ c = ' ' ∨ c = '\t' ∨ c = '\n' ∨ c = '\r' := by
  simp [isSpace, or_assoc]

def Blank (s : Text) : Prop := ∀ c ∈ s, isSpace c

theorem skipSpace_blank (blank : Blank gap) (s : Text) : skipSpace (gap ++ s) = skipSpace s :=
  List.dropWhile_append_of_pos blank

theorem skipSpace_cons (visible : ¬ isSpace c) (s : Text) : skipSpace (c :: s) = c :: s :=
  List.dropWhile_cons_of_neg visible

def Ends (s : Text) : Prop := ∀ c ∈ s.head?, isSpace c ∨ c = ',' ∨ c = ']' ∨ c = '\x7d'

theorem Ends.blank (blank : Blank gap) (ends : Ends s) : Ends (gap ++ s) := by
  cases gap with
  | nil => exact ends
  | cons c gap =>
    intro d head
    obtain rfl : c = d := by simpa using head
    exact .inl (blank c List.mem_cons_self)

/-- The text begins with something, and not with what may stand before or end a list. -/
def Begins (s : Text) : Prop := ∃ c t, s = c :: t ∧ ¬ isSpace c ∧ c ≠ ']' ∧ c ≠ '\x7d'

theorem Begins.append (begins : Begins s) (rest : Text) : Begins (s ++ rest) := by
  obtain ⟨c, t, rfl, visible⟩ := begins
  exact ⟨c, t ++ rest, rfl, visible⟩

theorem Begins.skipSpace (begins : Begins s) : skipSpace s = s := by
  obtain ⟨c, t, rfl, visible, -⟩ := begins
  exact skipSpace_cons visible t

theorem Begins.joined_append (begins : Begins t) (separator : Text) (ts : List Text) (rest : Text) :
    Begins (joined separator (t :: ts) ++ rest) := by
  obtain ⟨more, same⟩ := joined_cons_append separator t ts rest
  exact same ▸ begins.append more

end Spaces

section Values
variable {depth fuel : Nat} {text before gap last s t rest : Text} {value : Json}
  {items : List Json} {members : Members} {write : Json → Text}

/-- A text is read as a value in front of whatever ends a value. -/
structure Reads (depth : Nat) (text : Text) (value : Json) : Prop where
  begins : Begins text
  reads : ∀ {fuel rest}, text.length < fuel → Ends rest →
    readValue depth fuel (text ++ rest) = .ok (value, rest)

theorem Reads.read (reads : Reads depthLimit text value) : read text = .ok value := by
  have whole : readValue depthLimit (2 * text.length + 2) (text ++ []) = .ok (value, []) :=
    reads.reads (by omega) (by simp [Ends])
  rw [List.append_nil] at whole
  rw [Json.read, reads.begins.skipSpace, whole]
  rfl

theorem reads_string (apart : s.HalvesApart) (depth : Nat) :
    Reads depth (ofChars (stringText s)) (string s) where
  begins := ⟨'"', _, rfl, by decide, by decide, by decide⟩
  reads {fuel rest} long _ := by
    obtain _ | fuel := fuel
    · exact absurd long (Nat.not_lt_zero _)
    have split : ofChars (stringText s) ++ rest =
        .char '"' :: (ofChars (s.flatMap escape) ++ .char '"' :: rest) := by
      simp [stringText, ofChars]
    rw [split, readValue, readString_text apart]
    rfl

section Listed
variable {α : Type} {closing : CodePoint} {reader : Nat → Text →
  Except ReadError (List α × Text)}
  {written : α → Text} {a : α} {as : List α}

/-- The items of an array and the members of an object are read alike: what stands behind one
decides whether it is the last one. -/
structure ReadsEach (closing : CodePoint)
    (reader : Nat → Text → Except ReadError (List α × Text)) (written : α →
      Text) (a : α) : Prop where
  begins : Begins (written a)
  last : ∀ {fuel t rest}, (written a).length < fuel → Ends t →
    skipSpace t = closing :: rest →
    reader (fuel + 1) (written a ++ t) = .ok ([a], rest)
  next : ∀ {fuel t s}, (written a).length < fuel → Ends t → skipSpace t = .char ',' :: s →
    reader (fuel + 1) (written a ++ t) =
      (reader fuel (skipSpace s)).map fun (as, rest) => (a :: as, rest)

/-- Each one takes one unit of fuel, and the comma before the next one pays for it. -/
theorem reader_joined (closes : closing = ']' ∨ closing = '\x7d') (between : Blank gap)
    (behind : Blank last) (nonempty : as ≠ []) (each : ∀ a ∈ as,
      ReadsEach closing reader written a)
    (long : (joined (.char ',' :: gap) (as.map written)).length < fuel) (rest : Text) :
    reader (fuel + 1) (joined (.char ',' :: gap) (as.map written) ++ (last ++ closing :: rest)) =
      .ok (as, rest) := by
  induction as generalizing fuel with
  | nil => exact absurd rfl nonempty
  | cons a as ih =>
    obtain ⟨first, others⟩ := List.forall_mem_cons.mp each
    cases as with
    | nil =>
      have ends : Ends (last ++ closing :: rest) :=
        Ends.blank behind (by rcases closes with rfl | rfl <;> simp [Ends])
      have found : skipSpace (last ++ closing :: rest) = closing :: rest := by
        rw [skipSpace_blank behind, skipSpace_cons (by rcases closes with rfl | rfl <;> decide)]
      simp only [List.map_cons, List.map_nil, joined, List.intercalate_singleton] at long ⊢
      exact first.last long ends found
    | cons next as =>
      obtain _ | fuel := fuel
      · exact absurd long (Nat.not_lt_zero _)
      have begins := (others next List.mem_cons_self).begins.joined_append (.char ',' :: gap)
        (as.map written) (last ++ closing :: rest)
      simp only [List.map_cons, joined_cons_cons, List.append_assoc, List.cons_append,
        List.length_append, List.length_cons] at long ih ⊢
      rw [first.next (by omega) (by simp [Ends]) (skipSpace_cons (by decide) _),
        skipSpace_blank between, begins.skipSpace, ih (List.cons_ne_nil next as) others (by omega)]
      rfl

theorem reads_joined {opening : CodePoint}
    (opens : ¬ isSpace opening ∧ opening ≠ ']' ∧ opening ≠ '\x7d')
    (closes : closing = ']' ∨ closing = '\x7d') (inFront : Blank before) (between : Blank gap)
    (behind : Blank last) (nonempty : as ≠ []) (each : ∀ a ∈ as,
      ReadsEach closing reader written a)
    (content : ∀ {fuel s rest}, Begins (skipSpace s) →
      reader fuel (skipSpace s) = .ok (as, rest) →
      readValue (depth + 1) (fuel + 1) (opening :: s) = .ok (value, rest)) :
    Reads (depth + 1)
      (opening ::
        (before ++ (joined (.char ',' :: gap) (as.map written) ++ (last ++ [closing])))) value where
  begins := ⟨opening, _, rfl, opens⟩
  reads {fuel rest} long _ := by
    obtain _ | _ | fuel := fuel
    · exact absurd long (Nat.not_lt_zero _)
    · simp at long
    obtain ⟨a, others, rfl⟩ := List.exists_cons_of_ne_nil nonempty
    have begins : Begins (joined (.char ',' :: gap) ((a :: others).map written) ++
        (last ++ closing :: rest)) :=
      (each a List.mem_cons_self).begins.joined_append (.char ',' :: gap) (others.map written) _
    have shorter : (joined (.char ',' :: gap) ((a :: others).map written)).length < fuel := by
      simp only [List.length_cons, List.length_append] at long
      omega
    have listed := reader_joined closes between behind nonempty each shorter rest
    have start := (skipSpace_blank inFront _).trans begins.skipSpace
    rw [← start] at begins listed
    simpa only [List.cons_append, List.append_assoc, List.nil_append] using content begins listed

end Listed

theorem Reads.item (reads : Reads depth (write value) value) :
    ReadsEach ']' (readItems depth) write value where
  begins := reads.begins
  last long ends found := by
    rw [readItems, reads.reads long ends]
    simp only [bind, Except.bind, found]
    rfl
  next long ends found := by
    rw [readItems, reads.reads long ends]
    simp only [bind, Except.bind, found]
    rfl

def memberText (write : Json → Text) (member : Text × Json) : Text :=
  ofChars (stringText member.1) ++ (": " ++ write member.2)

theorem readMembers_member {member : Text × Json} (apart : member.1.HalvesApart)
    (reads : Reads depth (write member.2) member.2) (long : (memberText write member).length < fuel)
    (ends : Ends t) :
    readMembers depth (fuel + 1) (memberText write member ++ t) =
      match skipSpace t with
      | .char '\x7d' :: rest => .ok ([member], rest)
      | .char ',' :: s =>
        (readMembers depth fuel (skipSpace s)).map fun (members, rest) => (member :: members, rest)
      | _ => .error .malformed := by
  have text : memberText write member ++ t =
      .char '"' :: (ofChars (member.1.flatMap escape) ++
        .char '"' :: .char ':' :: .char ' ' :: (write member.2 ++ t)) := by
    have colon : ((": " : String) : Text) = [.char ':', .char ' '] := rfl
    simp [memberText, stringText, ofChars, colon]
  have start : skipSpace (.char ' ' :: (write member.2 ++ t)) = write member.2 ++ t :=
    (reads.begins.append t).skipSpace
  have shorter : (write member.2).length < fuel := by
    simp only [memberText, List.length_append] at long
    omega
  rw [text, readMembers, readString_text apart]
  simp only [orMalformed, bind, Except.bind, skipSpace_cons (c := .char ':') (by decide), start,
    reads.reads shorter ends]
  rfl

theorem Reads.member {member : Text × Json} (apart : member.1.HalvesApart)
    (reads : Reads depth (write member.2) member.2) :
    ReadsEach '\x7d' (readMembers depth) (memberText write) member where
  begins := ⟨'"', _, rfl, by decide, by decide, by decide⟩
  last long ends found := by
    rw [readMembers_member apart reads long ends, found]
    rfl
  next long ends found := by
    rw [readMembers_member apart reads long ends, found]
    rfl

theorem reads_array (inFront : Blank before) (between : Blank gap) (behind : Blank last)
    (nonempty : items ≠ []) (each : ∀ item ∈ items, Reads depth (write item) item) :
    Reads (depth + 1)
      (.char '[' :: (before ++
        (joined (.char ',' :: gap) (items.map write) ++ (last ++ [.char ']']))))
      (array items) := by
  refine reads_joined (by decide) (.inl rfl) inFront between behind nonempty
    (fun item member => (each item member).item) fun begins listed => ?_
  obtain ⟨c, t, start, -, bracket, -⟩ := begins
  simp only [start] at listed
  simp [readValue, start, bracket, listed, Except.map]

theorem reads_object (inFront : Blank before) (between : Blank gap) (behind : Blank last)
    (nonempty : members ≠ []) (keys : ∀ member ∈ members, member.1.HalvesApart)
    (each : ∀ member ∈ members, Reads depth (write member.2) member.2) :
    Reads (depth + 1)
      (.char '\x7b' ::
        (before ++ (joined (.char ',' :: gap) (members.map (memberText write)) ++
          (last ++ [.char '\x7d']))))
      (object (Table.ofList members)) := by
  refine reads_joined (by decide) (.inr rfl) inFront between behind nonempty
    (fun member listed => (each member listed).member (keys member listed)) fun begins listed => ?_
  obtain ⟨c, t, start, -, -, brace⟩ := begins
  simp only [start] at listed
  simp [readValue, start, brace, listed, Except.map]

theorem reads_noItems (depth : Nat) : Reads (depth + 1) "[]" (array []) where
  begins := ⟨'[', [.char ']'], rfl, by decide, by decide, by decide⟩
  reads {fuel rest} long _ := by
    obtain _ | fuel := fuel
    · exact absurd long (Nat.not_lt_zero _)
    rfl

theorem reads_noMembers (depth : Nat) :
    Reads (depth + 1) [.char '\x7b', .char '\x7d'] (object []) where
  begins := ⟨'\x7b', [.char '\x7d'], rfl, by decide, by decide, by decide⟩
  reads {fuel rest} long _ := by
    obtain _ | fuel := fuel
    · exact absurd long (Nat.not_lt_zero _)
    rfl

end Values

section Lines
variable {depth : Nat} {items : List Json} {members : Members} {ts : List Text} {s : Text}

theorem line_items (items : List Json) :
    ofChars (compactItems items) = joined ", " (items.map line) := by
  refine eq_joined (f := fun items => ofChars (compactItems items)) rfl (fun item => rfl)
    (fun item next items => ?_) items
  simp [compactItems, ofChars, ofString]

theorem line_members (members : Members) :
    ofChars (compactMembers members) = joined ", " (members.map (memberText line)) := by
  refine eq_joined (f := fun members => ofChars (compactMembers members)) rfl (fun member => ?_)
    (fun member next members => ?_) members
  · simp [compactMembers, memberText, line, ofChars, ofString]
  · simp [compactMembers, memberText, line, ofChars, ofString]

theorem line_array (items : List Json) :
    line (array items) = .char '[' :: (joined ", " (items.map line) ++ [.char ']']) := by
  rw [← line_items]
  simp [line, compact, ofChars]

theorem line_object (members : Members) :
    line (object members) =
      .char '\x7b' :: (joined ", " (members.map (memberText line)) ++ [.char '\x7d']) := by
  rw [← line_members]
  simp [line, compact, ofChars]

def ReadsBack (depth : Nat) (value : Json) : Prop := Reads depth value.line value

theorem blank_nil : Blank [] := List.forall_mem_nil _

theorem blank_space : Blank [.char ' '] := by simp [Blank, isSpace]

theorem ReadsBack.string (apart : s.HalvesApart) (depth : Nat) : ReadsBack depth (string s) :=
  reads_string apart depth

theorem ReadsBack.array (each : ∀ item ∈ items, ReadsBack depth item) :
    ReadsBack (depth + 1) (array items) := by
  rw [ReadsBack]
  cases items with
  | nil => exact reads_noItems depth
  | cons item items =>
    rw [line_array]
    exact reads_array blank_nil blank_space blank_nil (List.cons_ne_nil item items) each

theorem ReadsBack.object (keys : ∀ member ∈ members, member.1.HalvesApart)
    (distinct : (Table.keys members).Nodup) (each : ∀ member ∈ members,
      ReadsBack depth member.2) :
    ReadsBack (depth + 1) (object members) := by
  rw [ReadsBack]
  cases members with
  | nil => exact reads_noMembers depth
  | cons member members =>
    have reads := reads_object blank_nil blank_space blank_nil
      (List.cons_ne_nil member members) keys each
    rw [Table.ofList_of_nodup distinct] at reads
    rw [line_object]
    exact reads

theorem forall_mem_joined {P : CodePoint → Prop} {separator : Text}
    (separates : ∀ c ∈ separator, P c) (each : ∀ t ∈ ts, ∀ c ∈ t, P c) :
    ∀ c ∈ joined separator ts, P c := by
  intro c member
  rcases mem_of_mem_intercalate member with between | ⟨t, listed, inside⟩
  · exact separates c between
  · exact each t listed c inside

theorem visible_array (each : ∀ item ∈ items, Visible item.line) :
    Visible (array items).line := by
  have content : Visible (joined ", " (items.map line)) :=
    forall_mem_joined (by decide) fun t written => by
      obtain ⟨item, member, rfl⟩ := List.mem_map.mp written
      exact each item member
  have bracket : Visible [.char '['] ∧ Visible [.char ']'] := by decide
  rw [line_array]
  exact bracket.1.append (content.append bracket.2)

theorem visible_object (each : ∀ member ∈ members, Visible member.2.line) :
    Visible (object members).line := by
  have content : Visible (joined ", " (members.map (memberText line))) :=
    forall_mem_joined (by decide) fun t written => by
      obtain ⟨⟨key, value⟩, member, rfl⟩ := List.mem_map.mp written
      exact (visible_stringText key).append (Visible.append (by decide) (each _ member))
  have brace : Visible [.char '\x7b'] ∧ Visible [.char '\x7d'] := by decide
  rw [line_object]
  exact brace.1.append (content.append brace.2)

end Lines
end Json
end SeoAudit
