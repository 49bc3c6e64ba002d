import SeoAudit.Proofs.Lists
import SeoAudit.Proofs.WrittenNumbers

/-! Nesting in JSON texts. Each reader leaves an end of the text that it is given, so twice as
much fuel as there are code points is never used up, and it is the depth that is limited. In
particular brackets that are never closed are answered by the limit, however many they are. -/
namespace SeoAudit
namespace Json
open Text

section Left
variable {s t rest : Text}

theorem skipSpace_suffix (s : Text) : skipSpace s <:+ s := List.dropWhile_suffix _

theorem orMalformed_eq_ok {α : Type} {a? : Option α} {a : α} :
    orMalformed a? = .ok a ↔ a? = some a := by
  cases a? <;> simp [orMalformed]

theorem readPieces_suffix {pieces : List Piece} (read : readPieces s = some (pieces, rest)) :
    rest <:+ s := by
  fun_induction readPieces s generalizing pieces with
  | case1 => cases read
  | case2 cs =>
    cases read
    exact List.suffix_cons _ _
  | case3 a b c d cs ih =>
    simp only [Option.bind_eq_bind, Option.bind_eq_some_iff, Prod.exists] at read
    obtain ⟨u, -, ps, left, more, same⟩ := read
    cases same
    exact (ih more).trans ⟨[_, _, _, _, _, _], rfl⟩
  | case4 e cs _ ih =>
    simp only [Option.bind_eq_bind, Option.bind_eq_some_iff, Prod.exists] at read
    obtain ⟨c, -, ps, left, more, same⟩ := read
    cases same
    exact (ih more).trans ⟨[_, _], rfl⟩
  | case5 => cases read
  | case6 c cs _ _ _ _ ih =>
    simp only [Option.bind_eq_bind, Option.bind_eq_some_iff, Prod.exists] at read
    obtain ⟨ps, left, more, same⟩ := read
    cases same
    exact (ih more).trans (List.suffix_cons _ _)

theorem readString_suffix (read : readString s = some (t, rest)) : rest <:+ s := by
  obtain ⟨⟨pieces, left⟩, more, same⟩ := Option.map_eq_some_iff.mp read
  cases same
  exact readPieces_suffix more

theorem readDigits_suffix (read : readDigits s = some (t, rest)) : rest <:+ s := by
  unfold readDigits at read
  split at read
  · cases read
  · cases read
    exact List.dropWhile_suffix _

theorem readWholeDigits_suffix (read : readWholeDigits s = some (t, rest)) : rest <:+ s := by
  unfold readWholeDigits at read
  split at read
  · cases read
    exact List.suffix_cons _ _
  · exact readDigits_suffix read

theorem readFraction_suffix (read : readFraction s = some (t, rest)) : rest <:+ s := by
  unfold readFraction at read
  split at read
  · exact (readDigits_suffix read).trans (List.suffix_cons _ _)
  · cases read

theorem readExponent_suffix {e : Int} (read : readExponent s = some (e, rest)) : rest <:+ s := by
  unfold readExponent at read
  split at read
  · split at read
    · split at read
      all_goals
        obtain ⟨⟨digits, left⟩, more, same⟩ := Option.map_eq_some_iff.mp read
        cases same
      · exact (readDigits_suffix more).trans ⟨[_, _], rfl⟩
      · exact (readDigits_suffix more).trans ⟨[_, _], rfl⟩
      · exact (readDigits_suffix more).trans (List.suffix_cons _ _)
    · cases read
  · cases read

theorem readUnsigned_suffix {negative : Bool} {n : Number}
    (read : readUnsigned negative s = .ok (n, rest)) : rest <:+ s := by
  obtain ⟨⟨digits, behind⟩, first, read⟩ := bind_eq_ok_iff.mp read
  have whole := readWholeDigits_suffix (orMalformed_eq_ok.mp first)
  dsimp only at read
  split at read
  · obtain ⟨m, -, same⟩ := bind_eq_ok_iff.mp read
    cases same
    exact whole
  · rename_i fraction exponent
    cases read
    exact (readFraction_suffix fraction).trans whole
  · rename_i fraction exponent
    rw [fraction] at exponent
    cases read
    exact (readExponent_suffix exponent).trans whole
  · rename_i fraction exponent
    rw [fraction] at exponent
    cases read
    exact (readExponent_suffix exponent).trans ((readFraction_suffix fraction).trans whole)

theorem readScalar_suffix {v : Json} (read : readScalar s = .ok (v, rest)) : rest <:+ s := by
  unfold readScalar at read
  split at read
  · rename_i word found
    cases read
    obtain ⟨⟨word, value⟩, -, taken⟩ := List.exists_of_findSome?_eq_some found
    obtain ⟨left, behind, same⟩ := Option.map_eq_some_iff.mp taken
    cases same
    exact ⟨word, (after?_eq_some.mp behind).symm⟩
  · obtain ⟨⟨n, left⟩, number, same⟩ := map_eq_ok_iff.mp read
    cases same
    unfold readNumber at number
    split at number
    · exact (readUnsigned_suffix number).trans (List.suffix_cons _ _)
    · exact readUnsigned_suffix number

/-- What a reader with some fuel leaves is an end of what it is given. -/
structure LeavesEnds (fuel : Nat) : Prop where
  value {depth : Nat} {s rest : Text} {v : Json} :
    readValue depth fuel s = .ok (v, rest) → rest <:+ s
  items {depth : Nat} {s rest : Text} {items : List Json} :
    readItems depth fuel s = .ok (items, rest) → rest <:+ s
  members {depth : Nat} {s rest : Text} {members : Members} :
    readMembers depth fuel s = .ok (members, rest) → rest <:+ s

theorem suffix_behind {c : CodePoint} (found : skipSpace s = c :: t) : t <:+ s :=
  (List.suffix_cons c t).trans (found ▸ skipSpace_suffix s)

variable {depth fuel : Nat}

theorem LeavesEnds.value_succ (ends : LeavesEnds fuel) {v : Json}
    (read : readValue depth (fuel + 1) s = .ok (v, rest)) : rest <:+ s := by
  unfold readValue at read
  split at read
  · cases read
  · obtain ⟨⟨text, left⟩, made, same⟩ := map_eq_ok_iff.mp read
    cases same
    exact (readString_suffix (orMalformed_eq_ok.mp made)).trans (List.suffix_cons _ _)
  · rename_i same
    cases same
    split at read
    · cases read
    · rename_i found
      cases read
      exact (suffix_behind found).trans (List.suffix_cons _ _)
    · obtain ⟨⟨items, left⟩, made, same⟩ := map_eq_ok_iff.mp read
      cases same
      exact (ends.items made).trans ((skipSpace_suffix _).trans (List.suffix_cons _ _))
  · rename_i same
    cases same
    split at read
    · cases read
    · rename_i found
      cases read
      exact (suffix_behind found).trans (List.suffix_cons _ _)
    · obtain ⟨⟨members, left⟩, made, same⟩ := map_eq_ok_iff.mp read
      cases same
      exact (ends.members made).trans ((skipSpace_suffix _).trans (List.suffix_cons _ _))
  · exact readScalar_suffix read

theorem LeavesEnds.items_succ (ends : LeavesEnds fuel) {items : List Json}
    (read : readItems depth (fuel + 1) s = .ok (items, rest)) : rest <:+ s := by
  unfold readItems at read
  obtain ⟨⟨item, behind⟩, first, read⟩ := bind_eq_ok_iff.mp read
  have within := ends.value first
  dsimp only at read
  split at read
  · rename_i found
    cases read
    exact (suffix_behind found).trans within
  · rename_i found
    obtain ⟨⟨others, left⟩, more, same⟩ := bind_eq_ok_iff.mp read
    cases same
    exact (ends.items more).trans
      ((skipSpace_suffix _).trans ((suffix_behind found).trans within))
  · cases read

theorem LeavesEnds.members_succ (ends : LeavesEnds fuel) {members : Members}
    (read : readMembers depth (fuel + 1) s = .ok (members, rest)) : rest <:+ s := by
  unfold readMembers at read
  split at read
  · cases read
  · rename_i same
    cases same
    obtain ⟨⟨key, behind⟩, named, read⟩ := bind_eq_ok_iff.mp read
    have within := (readString_suffix (orMalformed_eq_ok.mp named)).trans
      (List.suffix_cons (.char '"') _)
    dsimp only at read
    split at read
    · rename_i colon
      obtain ⟨⟨value, behind⟩, first, read⟩ := bind_eq_ok_iff.mp read
      have within := (ends.value first).trans
        ((skipSpace_suffix _).trans ((suffix_behind colon).trans within))
      dsimp only at read
      split at read
      · rename_i found
        cases read
        exact (suffix_behind found).trans within
      · rename_i found
        obtain ⟨⟨others, left⟩, more, same⟩ := bind_eq_ok_iff.mp read
        cases same
        exact (ends.members more).trans
          ((skipSpace_suffix _).trans ((suffix_behind found).trans within))
      · cases read
    · cases read
  · cases read

theorem leavesEnds (fuel : Nat) : LeavesEnds fuel := by
  induction fuel with
  | zero => exact ⟨nofun, nofun, nofun⟩
  | succ fuel ih => exact ⟨ih.value_succ, ih.items_succ, ih.members_succ⟩

theorem length_skipSpace_le (s : Text) : (skipSpace s).length ≤ s.length :=
  (skipSpace_suffix s).length_le

theorem length_behind {c : CodePoint} (found : skipSpace s = c :: t) :
    (skipSpace t).length < s.length := by
  have whole := length_skipSpace_le s
  rw [found, List.length_cons] at whole
  have further := length_skipSpace_le t
  omega

end Left

section Fuel

structure EnoughFuel (fuel : Nat) : Prop where
  value {depth : Nat} {s : Text} :
    2 * s.length < fuel → readValue depth (fuel + 1) s = readValue depth fuel s
  items {depth : Nat} {s : Text} :
    2 * s.length + 1 < fuel → readItems depth (fuel + 1) s = readItems depth fuel s
  members {depth : Nat} {s : Text} :
    2 * s.length + 1 < fuel → readMembers depth (fuel + 1) s = readMembers depth fuel s

variable {depth fuel : Nat} {s : Text}

theorem EnoughFuel.value_succ (same : EnoughFuel fuel) (enough : 2 * s.length < fuel + 1) :
    readValue depth (fuel + 2) s = readValue depth (fuel + 1) s := by
  rw [readValue.eq_def, readValue.eq_def depth (fuel + 1)]
  split
  · contradiction
  · rfl
  · rename_i inner found
    cases found
    have shorter := length_skipSpace_le inner
    rw [List.length_cons] at enough
    split
    · rfl
    · rfl
    · rw [same.items (by omega)]
  · rename_i inner found
    cases found
    have shorter := length_skipSpace_le inner
    rw [List.length_cons] at enough
    split
    · rfl
    · rfl
    · rw [same.members (by omega)]
  · rfl

theorem EnoughFuel.items_succ (same : EnoughFuel fuel)
    (enough : 2 * s.length + 1 < fuel + 1) :
    readItems depth (fuel + 2) s = readItems depth (fuel + 1) s := by
  rw [readItems, readItems, same.value (by omega)]
  refine bind_congr_ok fun ⟨item, behind⟩ first => ?_
  have shorter := ((leavesEnds fuel).value first).length_le
  dsimp only
  split
  · rfl
  · rename_i found
    have further := length_behind found
    rw [same.items (by omega)]
  · rfl

theorem EnoughFuel.members_succ (same : EnoughFuel fuel)
    (enough : 2 * s.length + 1 < fuel + 1) :
    readMembers depth (fuel + 2) s = readMembers depth (fuel + 1) s := by
  rw [readMembers.eq_def, readMembers.eq_def depth (fuel + 1)]
  split
  · contradiction
  · rename_i inner found
    cases found
    rw [List.length_cons] at enough
    refine bind_congr_ok fun ⟨key, behind⟩ named => ?_
    have shorter := (readString_suffix (orMalformed_eq_ok.mp named)).length_le
    dsimp only
    split
    · rename_i colon
      have valued := length_behind colon
      rw [same.value (by omega)]
      refine bind_congr_ok fun ⟨value, behind⟩ first => ?_
      have shorter := ((leavesEnds fuel).value first).length_le
      dsimp only
      split
      · rfl
      · rename_i found
        have further := length_behind found
        rw [same.members (by omega)]
      · rfl
    · rfl
  · rfl

/-- A bracket pays for two readers, and a comma for one. -/
theorem enoughFuel (fuel : Nat) : EnoughFuel fuel := by
  induction fuel with
  | zero => exact ⟨nofun, nofun, nofun⟩
  | succ fuel ih => exact ⟨ih.value_succ, ih.items_succ, ih.members_succ⟩

theorem readValue_of_enough (enough : 2 * s.length < fuel) :
    readValue depth fuel s = readValue depth (2 * s.length + 1) s := by
  induction enough with
  | refl => rfl
  | step more ih => rw [(enoughFuel _).value more, ih]

/-- The fuel of a text is never used up: it is read with any more of it as it is. -/
theorem read_of_enough (enough : 2 * s.length < fuel) :
    read s = (do
      let (value, rest) ← readValue depthLimit fuel (skipSpace s)
      if (skipSpace rest).isEmpty then pure value else throw .malformed) := by
  have shorter := length_skipSpace_le s
  have given : readValue depthLimit (2 * s.length + 2) (skipSpace s) =
      readValue depthLimit fuel (skipSpace s) :=
    (readValue_of_enough (by omega)).trans (readValue_of_enough (by omega)).symm
  rw [read, given]

end Fuel

section Unclosed

theorem readValue_unclosed {depth fuel n : Nat} (deep : depth < n) (enough : 2 * depth < fuel) :
    readValue depth fuel (List.replicate n (.char '[')) = .error (.tooDeep .array) := by
  induction depth generalizing fuel n with
  | zero =>
    obtain ⟨n, rfl⟩ := Nat.exists_eq_add_one.mpr deep
    obtain ⟨fuel, rfl⟩ := Nat.exists_eq_add_one.mpr enough
    rfl
  | succ depth ih =>
    obtain ⟨n, rfl⟩ : ∃ m, n = m + 2 := ⟨n - 2, by omega⟩
    obtain ⟨fuel, rfl⟩ : ∃ m, fuel = m + 2 := ⟨fuel - 2, by omega⟩
    have inner : readValue depth fuel (List.replicate (n + 1) (.char '[')) =
        .error (.tooDeep .array) := ih (by omega) (by omega)
    have first : readValue (depth + 1) (fuel + 2) (List.replicate (n + 2) (.char '[')) =
        (readItems depth (fuel + 1) (List.replicate (n + 1) (.char '['))).map
          fun read => (array read.1, read.2) := rfl
    rw [first, readItems, inner]
    rfl

/-- Brackets that are never closed are too deep, and not malformed, when there are enough. -/
theorem read_unclosed {n : Nat} (deep : depthLimit < n) :
    read (List.replicate n (.char '[')) = .error (.tooDeep .array) := by
  have visible : skipSpace (List.replicate n (.char '[')) = List.replicate n (.char '[') := by
    cases n <;> rfl
  rw [read, visible, List.length_replicate, readValue_unclosed deep (by omega)]
  rfl

end Unclosed
end Json
end SeoAudit
