import SeoAudit.Proofs.WrittenFractions

/-! JSON values written on several lines, with the members of each object in the order of their
keys. The text is in ASCII, and where texts, keys and numbers are such as can be read back it
is read as the same value, but for the order of members. -/
namespace SeoAudit
namespace Json
open Text

/-- What holds of a value once it holds of the values inside it holds of all values. -/
theorem inside_induction {P : Json → Prop} (null : P null) (bool : ∀ b, P (bool b))
    (number : ∀ n, P (number n)) (string : ∀ s, P (string s))
    (array : ∀ items, (∀ item ∈ items, P item) → P (array items))
    (object : ∀ members, (∀ member ∈ members, P member.2) → P (object members)) (v : Json) :
    P v :=
  @Json.rec P (fun items => ∀ item ∈ items, P item)
    (fun members => ∀ member ∈ members, P member.2)
    (fun member => P member.2) null bool number string array object (List.forall_mem_nil _)
    (fun _ _ first others => List.forall_mem_cons.mpr ⟨first, others⟩) (List.forall_mem_nil _)
    (fun _ _ first others => List.forall_mem_cons.mpr ⟨first, others⟩)
    (fun _ _ first => first) v

section Parts
variable {P : Json → Prop} {b : Bool} {n : Number} {s : Text} {items : List Json}
  {members : Members}
  {depth : Nat}

mutual

def parts : Json → List Json
  | array items => array items :: itemParts items
  | object members => object members :: memberParts members
  | value => [value]

def itemParts : List Json → List Json
  | [] => []
  | item :: items => parts item ++ itemParts items

def memberParts : List (Text × Json) → List Json
  | [] => []
  | (_, value) :: members => parts value ++ memberParts members

end

/-- The value and all values inside it are of this sort. -/
def Throughout (P : Json → Prop) (v : Json) : Prop := ∀ part ∈ v.parts, P part

instance [DecidablePred P] (v : Json) : Decidable (v.Throughout P) :=
  inferInstanceAs (Decidable (∀ part ∈ v.parts, P part))

theorem forall_itemParts :
    (∀ part ∈ itemParts items, P part) ↔ ∀ item ∈ items, item.Throughout P := by
  induction items with
  | nil => simp [itemParts]
  | cons item items ih => simp [itemParts, or_imp, forall_and, ih, Throughout]

theorem forall_memberParts :
    (∀ part ∈ memberParts members, P part) ↔
      ∀ member ∈ members, member.2.Throughout P := by
  induction members with
  | nil => simp [memberParts]
  | cons member members ih => simp [memberParts, or_imp, forall_and, ih, Throughout]

@[simp] theorem throughout_array :
    (array items).Throughout P ↔ P (array items) ∧ ∀ item ∈ items, item.Throughout P := by
  rw [← forall_itemParts]
  simp [Throughout, parts]

@[simp] theorem throughout_object :
    (object members).Throughout P ↔ P (object members) ∧
      ∀ member ∈ members, member.2.Throughout P := by
  rw [← forall_memberParts]
  simp [Throughout, parts]

@[simp] theorem throughout_number : (number n).Throughout P ↔ P (number n) := by
  simp [Throughout, parts]

@[simp] theorem throughout_string : (string s).Throughout P ↔ P (string s) := by
  simp [Throughout, parts]

/-- Arrays and objects stand inside one another at most so deep, and each number is one that can be
computed. -/
def Regular : Nat → Json → Prop
  | _, number n => n.Genuine
  | 0, array _ | 0, object _ => False
  | depth + 1, array items => ∀ item ∈ items, Regular depth item
  | depth + 1, object members => ∀ member ∈ members, Regular depth member.2
  | _, _ => True

@[simp] theorem regular_null : Regular depth null := by cases depth <;> trivial

@[simp] theorem regular_bool : Regular depth (bool b) := by cases depth <;> trivial

@[simp] theorem regular_string : Regular depth (string s) := by cases depth <;> trivial

@[simp] theorem regular_number : Regular depth (number n) ↔ n.Genuine := by cases depth <;> rfl

@[simp] theorem regular_array :
    Regular (depth + 1) (array items) ↔ ∀ item ∈ items, Regular depth item := Iff.rfl

@[simp] theorem regular_object :
    Regular (depth + 1) (object members) ↔ ∀ member ∈ members, Regular depth member.2 :=
  Iff.rfl

theorem Regular.mono {v : Json} {depth deeper : Nat} (le : depth ≤ deeper)
    (regular : Regular depth v) :
    Regular deeper v := by
  induction v using inside_induction generalizing depth deeper with
  | null | bool | string => simp
  | number n => exact regular_number.mpr (regular_number.mp regular)
  | array items ih =>
    obtain _ | depth := depth
    · exact regular.elim
    obtain _ | deeper := deeper
    · exact absurd le (Nat.not_succ_le_zero depth)
    exact fun item member => ih item member (Nat.le_of_succ_le_succ le) (regular item member)
  | object members ih =>
    obtain _ | depth := depth
    · exact regular.elim
    obtain _ | deeper := deeper
    · exact absurd le (Nat.not_succ_le_zero depth)
    exact fun member listed => ih member listed (Nat.le_of_succ_le_succ le) (regular member listed)

end Parts

/-- Equal as JSON values: arrays item by item, and objects key by key, whatever the order of the
members. -/
inductive Same : Json → Json → Prop
  | null : Same null null
  | bool (b : Bool) : Same (bool b) (bool b)
  | number (n : Number) : Same (number n) (number n)
  | string (s : Text) : Same (string s) (string s)
  | array {xs ys : List Json} (items : List.Forall₂ Same xs ys) : Same (array xs) (array ys)
  | object {ms ns : Members}
    (members : ∀ key, Option.Rel Same (Table.get? key ms) (Table.get? key ns)) :
    Same (object ms) (object ns)

section Sorted
variable {P : Json → Prop} {members : Members} {v : Json} {depth : Nat}

def sortedMembers (members : Members) : Members :=
  (members.map fun (key, value) => (key, value.sortKeys)).mergeSort fun a b => decide (a.1 ≤ b.1)

theorem sortKeysItems_eq_map (items : List Json) : sortKeysItems items = items.map sortKeys := by
  induction items with
  | nil => rfl
  | cons item items ih => rw [sortKeysItems, ih, List.map_cons]

theorem sortKeysMembers_eq_map (members : Members) :
    sortKeysMembers members = members.map fun (key, value) => (key, value.sortKeys) := by
  induction members with
  | nil => rfl
  | cons member members ih => rw [sortKeysMembers, ih, List.map_cons]

theorem sortKeys_array (items : List Json) :
    sortKeys (array items) = array (items.map sortKeys) := by
  rw [sortKeys, sortKeysItems_eq_map]

theorem sortKeys_object (members : Members) :
    sortKeys (object members) = object (sortedMembers members) := by
  rw [sortKeys, sortKeysMembers_eq_map, sortedMembers]

theorem sortedMembers_perm (members : Members) :
    (sortedMembers members).Perm (members.map fun (key, value) => (key, value.sortKeys)) :=
  List.mergeSort_perm _ _

theorem mem_sortedMembers {member : Text × Json} :
    member ∈ sortedMembers members ↔
      ∃ original ∈ members, (original.1, original.2.sortKeys) = member := by
  rw [(sortedMembers_perm members).mem_iff, List.mem_map]

theorem keys_sortedMembers_perm (members : Members) :
    (Table.keys (sortedMembers members)).Perm (Table.keys members) := by
  have keys := (sortedMembers_perm members).map Prod.fst
  rwa [List.map_map] at keys

theorem get?_sortedMembers (distinct : (Table.keys members).Nodup) (key : Text) :
    Table.get? key (sortedMembers members) = (Table.get? key members).map sortKeys := by
  have sorted : (Table.keys (sortedMembers members)).Nodup :=
    (keys_sortedMembers_perm members).nodup_iff.mpr distinct
  ext value
  rw [← Table.mem_iff_get? sorted, mem_sortedMembers, Option.map_eq_some_iff]
  constructor
  · rintro ⟨⟨key, original⟩, member, ⟨⟩⟩
    exact ⟨original, (Table.mem_iff_get? distinct).mp member, rfl⟩
  · rintro ⟨original, found, rfl⟩
    exact ⟨(key, original), (Table.mem_iff_get? distinct).mpr found, rfl⟩

/-- What a part of a value is like for its text to be read back: a text has no high half of a
pair right before a low one, the keys of an object stand once, and a whole number has not too
many digits. -/
def Plain : Json → Prop
  | string s => s.HalvesApart
  | number (.whole n) => (toString n.natAbs).length ≤ digitLimit
  | object members => (Table.keys members).Nodup ∧ ∀ key ∈ Table.keys members, key.HalvesApart
  | _ => True

instance : DecidablePred Plain
  | string s => inferInstanceAs (Decidable s.HalvesApart)
  | number (.whole n) => inferInstanceAs (Decidable ((toString n.natAbs).length ≤ digitLimit))
  | object members =>
    inferInstanceAs (Decidable ((Table.keys members).Nodup ∧
      ∀ key ∈ Table.keys members, key.HalvesApart))
  | null | bool _ | number (.fraction _) | array _ => .isTrue trivial

theorem same_sortKeys (plain : v.Throughout Plain) : Same v v.sortKeys := by
  induction v using inside_induction with
  | null => exact .null
  | bool b => exact .bool b
  | number n => exact .number n
  | string s => exact .string s
  | array items ih =>
    obtain ⟨-, each⟩ := throughout_array.mp plain
    rw [sortKeys_array]
    refine .array (List.forall₂_map_right_iff.mpr (List.forall₂_same.mpr fun item member => ?_))
    exact ih item member (each item member)
  | object members ih =>
    obtain ⟨⟨distinct, -⟩, each⟩ := throughout_object.mp plain
    rw [sortKeys_object]
    refine .object fun key => ?_
    rw [get?_sortedMembers distinct]
    cases found : Table.get? key members with
    | none => exact .none
    | some value =>
      have member := (Table.mem_iff_get? distinct).mpr found
      exact .some (ih _ member (each _ member))

end Sorted

section Indented
variable {v : Json} {depth : Nat}

def lines (k : Nat) (v : Json) : Text := ofChars (indented k v)

def lineBreak (k : Nat) : Text := ofChars (newLine k)

theorem blank_lineBreak (k : Nat) : Blank (lineBreak k) := by
  rintro c member
  obtain ⟨d, written, rfl⟩ := List.mem_map.mp member
  rcases List.mem_cons.mp written with rfl | space
  · decide
  · rw [List.eq_of_mem_replicate space]
    decide

theorem lines_array (k : Nat) {items : List Json} (nonempty : items ≠ []) :
    lines k (array items) = .char '[' :: (lineBreak (k + 1) ++
      (joined (.char ',' :: lineBreak (k + 1)) (items.map (lines (k + 1))) ++
        (lineBreak k ++ [.char ']']))) := by
  have each : ofChars (indentedItems (k + 1) items) =
      joined (.char ',' :: lineBreak (k + 1)) (items.map (lines (k + 1))) := by
    refine eq_joined (f := fun items => ofChars (indentedItems (k + 1) items)) rfl (fun item => rfl)
      (fun item next items => ?_) items
    simp [indentedItems, lineBreak, ofChars]
  obtain ⟨item, items, rfl⟩ := List.exists_cons_of_ne_nil nonempty
  rw [← each]
  simp [lines, lineBreak, indented, ofChars]

theorem lines_object (k : Nat) {members : Members} (nonempty : members ≠ []) :
    lines k (object members) = .char '\x7b' :: (lineBreak (k + 1) ++
      (joined (.char ',' :: lineBreak (k + 1)) (members.map (memberText (lines (k + 1)))) ++
        (lineBreak k ++ [.char '\x7d']))) := by
  have each : ofChars (indentedMembers (k + 1) members) =
      joined (.char ',' :: lineBreak (k + 1)) (members.map (memberText (lines (k + 1)))) := by
    refine eq_joined (f := fun members => ofChars (indentedMembers (k + 1) members)) rfl
      (fun member => ?_)
      (fun member next members => ?_) members
    · simp [indentedMembers, memberText, lines, ofChars, ofString]
    · simp [indentedMembers, memberText, lines, lineBreak, ofChars, ofString]
  obtain ⟨member, members, rfl⟩ := List.exists_cons_of_ne_nil nonempty
  rw [← each]
  simp [lines, lineBreak, indented, ofChars]

theorem reads_lines (regular : Regular depth v) (plain : v.Throughout Plain)
    (k : Nat) : Reads depth (lines k v.sortKeys) v.sortKeys := by
  induction v using inside_induction generalizing depth k with
  | null => exact reads_word (w := ("null", null)) (by simp [words]) depth
  | bool b =>
    cases b
    · exact reads_word (w := ("false", bool false)) (by simp [words]) depth
    · exact reads_word (w := ("true", bool true)) (by simp [words]) depth
  | number n =>
    cases n with
    | whole n => exact reads_whole (throughout_number.mp plain) depth
    | fraction x => exact reads_fraction (regular_number.mp regular) depth
  | string s => exact reads_string (throughout_string.mp plain) depth
  | array items ih =>
    obtain ⟨-, plain⟩ := throughout_array.mp plain
    obtain _ | depth := depth
    · exact regular.elim
    rw [sortKeys_array]
    by_cases nothing : items = []
    · subst nothing
      exact reads_noItems depth
    · have some : items.map sortKeys ≠ [] := by simpa using nothing
      rw [lines_array k some]
      refine reads_array (blank_lineBreak _) (blank_lineBreak _) (blank_lineBreak _) some
        fun item member => ?_
      obtain ⟨original, listed, rfl⟩ := List.mem_map.mp member
      exact ih original listed (regular original listed) (plain original listed) _
  | object members ih =>
    obtain ⟨⟨distinct, apart⟩, plain⟩ := throughout_object.mp plain
    obtain _ | depth := depth
    · exact regular.elim
    rw [sortKeys_object]
    by_cases nothing : members = []
    · have none : sortedMembers [] = [] := by simp [sortedMembers]
      rw [nothing, none]
      exact reads_noMembers depth
    · have keys := keys_sortedMembers_perm members
      have some : sortedMembers members ≠ [] := by
        intro none
        rw [none] at keys
        exact nothing (List.map_eq_nil_iff.mp keys.nil_eq.symm)
      have apart (member : Text × Json) (listed : member ∈ sortedMembers members) :
          member.1.HalvesApart :=
        apart _ (keys.mem_iff.mp (List.mem_map_of_mem listed))
      have each (member : Text × Json) (listed : member ∈ sortedMembers members) :
          Reads depth (lines (k + 1) member.2) member.2 := by
        obtain ⟨original, known, rfl⟩ := mem_sortedMembers.mp listed
        exact ih original known (regular original known) (plain original known) _
      have reads := reads_object (blank_lineBreak (k + 1)) (blank_lineBreak (k + 1))
        (blank_lineBreak k)
        some apart each
      rw [Table.ofList_of_nodup (keys.nodup_iff.mpr distinct)] at reads
      rw [lines_object k some]
      exact reads

end Indented
section Ascii
variable {s t : Text} {digits : String}

def Ascii (s : Text) : Prop := ∀ c ∈ s, c.code < 0x80

instance (s : Text) : Decidable (Ascii s) :=
  inferInstanceAs (Decidable (∀ c ∈ s, c.code < 0x80))

theorem Ascii.append (first : Ascii s) (second : Ascii t) : Ascii (s ++ t) :=
  fun c member => (List.mem_append.mp member).elim (first c) (second c)

theorem Visible.ascii (visible : Visible s) : Ascii s := fun c member => by
  have := visible c member
  omega

theorem ascii_of_isDigits (digits : IsDigits s) : Ascii s := fun c member => by
  have := digit_bounds (digits c member)
  omega

theorem ascii_toString (n : Int) : Ascii (ofString (toString n)) := by
  have digits := ascii_of_isDigits (decimal_isDigits n.natAbs)
  rw [ofString_toString_int]
  split_ifs
  · exact List.forall_mem_cons.mpr ⟨by decide, digits⟩
  · exact digits

theorem ascii_positional (ascii : Ascii (ofString digits)) (whole : Int) :
    Ascii (ofString (positional digits whole)) := by
  have zeros (count : Nat) := ascii_of_isDigits (zeros_isDigits count)
  rw [ofString_positional]
  split_ifs
  · exact Ascii.append (s := [.char '0', .char '.']) (by decide) ((zeros _).append ascii)
  · exact ascii.append (zeros _)
  · exact Ascii.append (fun c member => ascii c (List.mem_of_mem_take member))
      (List.forall_mem_cons.mpr
        ⟨by decide, fun c member => ascii c (List.mem_of_mem_drop member)⟩)

theorem ascii_scientific (ascii : Ascii (ofString digits)) (e : Int) :
    Ascii (ofString (scientific digits e)) := by
  have sign : (CodePoint.char (if e < 0 then '-' else '+')).code < 0x80 := by
    split_ifs <;> decide
  have power : Ascii (powered (some e)) :=
    List.forall_mem_cons.mpr ⟨by decide,
      List.forall_mem_cons.mpr ⟨sign, ascii_of_isDigits (exponentDigits_spec e.natAbs).1⟩⟩
  have part : Ascii (pointed ((ofString digits).drop 1)) := by
    rw [pointed]
    split_ifs
    · exact List.forall_mem_nil _
    · exact List.forall_mem_cons.mpr ⟨by decide,
        fun c member => ascii c (List.mem_of_mem_drop member)⟩
  rw [ofString_scientific]
  exact Ascii.append (fun c member => ascii c (List.mem_of_mem_take member)) (part.append power)

theorem ascii_positiveText (q : Rat) : Ascii (ofString (Binary64.positiveText q)) := by
  rw [Binary64.positiveText]
  have digits : Ascii (ofString (toString (Binary64.shortest q).digits)) :=
    ascii_toString (Binary64.shortest q).digits
  dsimp only
  split_ifs
  · exact ascii_positional digits _
  · rw [ofString_append]
    exact (ascii_positional digits _).append (by decide)
  · exact ascii_scientific digits _

theorem ascii_numberText : ∀ n : Number, Ascii (ofChars (numberText n))
  | .whole n => ascii_toString n
  | .fraction (.number q) => by
    show Ascii (ofString (Binary64.number q).text)
    rw [Binary64.text]
    split_ifs
    · decide
    · rw [ofString_append]
      exact Ascii.append (by decide) (ascii_positiveText _)
    · exact ascii_positiveText q
  | .fraction .negativeZero => by decide
  | .fraction (.infinity false) => by decide
  | .fraction (.infinity true) => by decide
  | .fraction .nan => by decide

theorem Blank.ascii (blank : Blank s) : Ascii s := fun c member => by
  rcases isSpace_iff.mp (blank c member) with rfl | rfl | rfl | rfl
  all_goals decide

theorem ascii_lines (v : Json) (k : Nat) : Ascii (lines k v) := by
  have breaks (k : Nat) : Ascii (lineBreak k) := (blank_lineBreak k).ascii
  have between (k : Nat) : Ascii (.char ',' :: lineBreak k) :=
    List.forall_mem_cons.mpr ⟨by decide, breaks k⟩
  induction v using inside_induction generalizing k with
  | null => exact (by decide : Ascii "null")
  | bool b =>
    cases b
    · exact (by decide : Ascii "false")
    · exact (by decide : Ascii "true")
  | number n => exact ascii_numberText n
  | string s => exact (visible_stringText s).ascii
  | array items ih =>
    by_cases nothing : items = []
    · subst nothing
      exact (by decide : Ascii "[]")
    · have content : Ascii (joined (.char ',' :: lineBreak (k + 1)) (items.map (lines (k + 1)))) :=
        forall_mem_joined (between _) fun t written => by
          obtain ⟨item, member, rfl⟩ := List.mem_map.mp written
          exact ih item member _
      rw [lines_array k nothing]
      exact List.forall_mem_cons.mpr
        ⟨by decide, (breaks _).append (content.append ((breaks _).append (by decide)))⟩
  | object members ih =>
    by_cases nothing : members = []
    · subst nothing
      exact (by decide : Ascii [.char '\x7b', .char '\x7d'])
    · have content :
          Ascii (joined (.char ',' :: lineBreak (k + 1))
            (members.map (memberText (lines (k + 1))))) :=
        forall_mem_joined (between _) fun t written => by
          obtain ⟨member, listed, rfl⟩ := List.mem_map.mp written
          exact (visible_stringText _).ascii.append (Ascii.append (by decide) (ih member listed _))
      rw [lines_object k nothing]
      exact List.forall_mem_cons.mpr
        ⟨by decide, (breaks _).append (content.append ((breaks _).append (by decide)))⟩

end Ascii
end Json
end SeoAudit
