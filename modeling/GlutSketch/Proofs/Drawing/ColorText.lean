import GlutSketch.Drawing.Color

/-!
# GlutSketch.Proofs.Drawing.ColorText

The texts that are colors.  A color is read off the characters of its text; the
same reading by bytes measures the text in UTF-8, looks at each byte, cuts at
fixed offsets and reads every pair with a reader that also takes a sign.  The
two agree, and none of the cuts is inside a character.

* `hexValue?_eq_some_iff` -- the sixteen digits, in both cases.
* `Color.Spells` -- the texts of a color.
* `Color.readBytes` -- the reading by bytes.
* `Color.ofHex?_accepts_spellings` -- what is read as a color, and as which.
-/

namespace GlutSketch

/-! ## Digits -/

/-- The hexadecimal digits in lower case, each at the place of its value. -/
def lowerHexDigits : List Char := "0123456789abcdef".toList

/-- The hexadecimal digits in upper case. -/
def upperHexDigits : List Char := "0123456789ABCDEF".toList

/-- `c` is the hexadecimal digit of `n`, in either case. -/
def IsHexDigit (c : Char) (n : Nat) : Prop :=
  lowerHexDigits[n]? = some c ∨ upperHexDigits[n]? = some c

instance (c : Char) (n : Nat) : Decidable (IsHexDigit c n) := inferInstanceAs (Decidable (_ ∨ _))

theorem IsHexDigit.lt {c : Char} {n : Nat} (h : IsHexDigit c n) : n < 16 := by
  cases h with
  | inl h => exact (List.getElem?_eq_some_iff.1 h).1
  | inr h => exact (List.getElem?_eq_some_iff.1 h).1

/-- What holds of the first 128 characters holds of every character of ASCII. -/
theorem forall_ascii {P : Char → Prop} (h : ∀ n < 128, P (Char.ofNat n)) {c : Char}
    (hc : c.toNat < 128) : P c := by
  have hn := h c.toNat hc
  rwa [Char.ofNat_toNat] at hn

/-- Every hexadecimal digit is an ASCII character. -/
theorem toNat_lt_of_hexValue? {c : Char} {n : Nat} (h : hexValue? c = some n) : c.toNat < 128 := by
  have hle {d : Char} (hcd : c ≤ d) (hd : d.toNat < 128) : c.toNat < 128 :=
    Nat.lt_of_le_of_lt (Char.le_def.1 hcd) hd
  unfold hexValue? at h
  split at h
  · next hdigit =>
      simp only [Char.isDigit, Bool.and_eq_true, decide_eq_true_eq] at hdigit
      exact hle hdigit.2 (by decide)
  · split at h
    · next hlower => exact hle hlower.2 (by decide)
    · split at h
      · next hupper => exact hle hupper.2 (by decide)
      · cases h

/-- The digits that are read are the sixteen digits, in either case. -/
theorem hexValue?_eq_some_iff {c : Char} {n : Nat} : hexValue? c = some n ↔ IsHexDigit c n := by
  constructor
  · intro h
    have hall : ∀ k < 128, ∀ m ∈ hexValue? (Char.ofNat k), IsHexDigit (Char.ofNat k) m := by
      decide +kernel
    exact forall_ascii (P := fun d => ∀ m ∈ hexValue? d, IsHexDigit d m) hall
      (toNat_lt_of_hexValue? h) n h
  · intro h
    have hall : ∀ k < 16, (lowerHexDigits[k]?).bind hexValue? = some k ∧
        (upperHexDigits[k]?).bind hexValue? = some k := by
      decide +kernel
    obtain ⟨hlower, hupper⟩ := hall n h.lt
    cases h with
    | inl h => rwa [h] at hlower
    | inr h => rwa [h] at hupper

/-- Only ASCII letters have another case here. -/
theorem toLower_of_not_lt {c : Char} (hc : ¬ c.toNat < 128) : c.toLower = c :=
  dif_neg fun h => hc (Nat.lt_of_le_of_lt (UInt32.le_iff_toNat_le.1 h.2) (by decide))

/-- The other case of a digit has the same value. -/
theorem hexValue?_toLower (c : Char) : hexValue? c.toLower = hexValue? c := by
  by_cases hc : c.toNat < 128
  · exact forall_ascii (P := fun d => hexValue? d.toLower = hexValue? d) (by decide +kernel) hc
  · rw [toLower_of_not_lt hc]

/-! ## Bytes -/

/-- The bytes of a text in UTF-8. -/
def utf8Bytes (cs : List Char) : List UInt8 := cs.flatMap String.utf8EncodeChar

/-- A byte that is a hexadecimal digit of ASCII. -/
def isHexByte (b : UInt8) : Bool :=
  (48 ≤ b && b ≤ 57) || (97 ≤ b && b ≤ 102) || (65 ≤ b && b ≤ 70)

/-- An ASCII character is one byte. -/
theorem utf8EncodeChar_of_lt {c : Char} (hc : c.toNat < 128) :
    String.utf8EncodeChar c = [UInt8.ofNat c.toNat] := by
  rw [String.utf8EncodeChar]
  exact if_pos (Nat.le_of_lt_succ hc)

/-- A byte of a longer character is never taken for a digit. -/
theorem isHexByte_ofNat_of_le {n : Nat} (hle : 128 ≤ n) (hlt : n < 256) :
    isHexByte (UInt8.ofNat n) = false := by
  have hall : ∀ k < 256, 128 ≤ k → isHexByte (UInt8.ofNat k) = false := by decide +kernel
  exact hall n hlt hle

/-- The first byte of a character that is longer than a byte is no digit. -/
theorem all_isHexByte_utf8EncodeChar (c : Char) :
    (String.utf8EncodeChar c).all isHexByte = (hexValue? c).isSome := by
  by_cases hc : c.toNat < 128
  · rw [utf8EncodeChar_of_lt hc]
    exact forall_ascii (P := fun d => [UInt8.ofNat d.toNat].all isHexByte = (hexValue? d).isSome)
      (by decide +kernel) hc
  · have hnone : hexValue? c = none :=
      Option.eq_none_iff_forall_ne_some.2 fun n h => hc (toNat_lt_of_hexValue? h)
    have hlong : ¬ c.val.toNat ≤ 127 := fun h => hc (Nat.lt_succ_of_le h)
    rw [hnone, String.utf8EncodeChar]
    simp only [if_neg hlong]
    split
    · rw [List.all_cons, isHexByte_ofNat_of_le (by omega) (by omega)]
      rfl
    · split
      · rw [List.all_cons, isHexByte_ofNat_of_le (by omega) (by omega)]
        rfl
      · rw [List.all_cons, isHexByte_ofNat_of_le (by omega) (by omega)]
        rfl

/-- The bytes of a text are digits exactly if its characters are. -/
theorem all_isHexByte_utf8Bytes (cs : List Char) :
    (utf8Bytes cs).all isHexByte = cs.all fun c => (hexValue? c).isSome := by
  rw [utf8Bytes, List.all_flatMap]
  exact congrArg cs.all (funext all_isHexByte_utf8EncodeChar)

/-- Digits are a byte long each. -/
theorem length_utf8Bytes_of_hex {cs : List Char} (h : ∀ c ∈ cs, (hexValue? c).isSome) :
    (utf8Bytes cs).length = cs.length := by
  induction cs with
  | nil => rfl
  | cons c cs ih =>
      obtain ⟨hc, hcs⟩ := List.forall_mem_cons.1 h
      obtain ⟨n, hn⟩ := Option.isSome_iff_exists.1 hc
      rw [utf8Bytes, List.flatMap_cons, List.length_append,
        utf8EncodeChar_of_lt (toNat_lt_of_hexValue? hn), ← utf8Bytes, ih hcs, List.length_cons,
        List.length_cons, List.length_nil]
      omega

/-! ## Cuts -/

/-- The characters before and after a number of bytes; nothing if the cut is
inside a character or behind the end. -/
def cutBytes? : Nat → List Char → Option (List Char × List Char)
  | 0, cs => some ([], cs)
  | _ + 1, [] => none
  | n + 1, c :: cs =>
      if n + 1 < c.utf8Size then none
      else (cutBytes? (n + 1 - c.utf8Size) cs).map fun (before, after) => (c :: before, after)

/-- The characters of `count` bytes from the byte `start` on. -/
def sliceBytes? (cs : List Char) (start count : Nat) : Option (List Char) := do
  let (_, rest) ← cutBytes? start cs
  let (part, _) ← cutBytes? count rest
  return part

theorem utf8Size_of_hexValue? {c : Char} {n : Nat} (h : hexValue? c = some n) :
    c.utf8Size = 1 := by
  rw [← String.length_utf8EncodeChar, utf8EncodeChar_of_lt (toNat_lt_of_hexValue? h)]
  rfl

/-- Cuts between digits are never inside a character. -/
theorem cutBytes?_of_hex {before after : List Char} (h : ∀ c ∈ before, (hexValue? c).isSome) :
    cutBytes? before.length (before ++ after) = some (before, after) := by
  induction before with
  | nil => rw [List.length_nil, cutBytes?, List.nil_append]
  | cons c cs ih =>
      obtain ⟨hc, hcs⟩ := List.forall_mem_cons.1 h
      obtain ⟨n, hn⟩ := Option.isSome_iff_exists.1 hc
      rw [List.length_cons, List.cons_append, cutBytes?, utf8Size_of_hexValue? hn,
        if_neg (by omega), Nat.add_sub_cancel, ih hcs]
      rfl

namespace Color

/-! ## Spellings -/

/-- Two digits stand for a byte, the first for its sixteens. -/
def SpellsByte (a b : Char) (v : UInt8) : Prop :=
  ∃ m n, IsHexDigit a m ∧ IsHexDigit b n ∧ v.toNat = 16 * m + n

/-- Two digits for each byte. -/
inductive SpellsDigits : List Char → Color → Prop where
  | intro {r r' g g' b b' : Char} {c : Color} (red : SpellsByte r r' c.red)
      (green : SpellsByte g g' c.green) (blue : SpellsByte b b' c.blue) :
      SpellsDigits [r, r', g, g', b, b'] c

/-- The text is the digits of the color, perhaps after one mark. -/
def Spells (text : String) (c : Color) : Prop :=
  ∃ digits, SpellsDigits digits c ∧ (text.toList = digits ∨ text.toList = '#' :: digits)

/-- Two digits give the byte that they spell. -/
theorem byte?_eq_some_iff {a b : Char} {v : UInt8} : byte? a b = some v ↔ SpellsByte a b v := by
  have hread {m n : Nat} (hm : hexValue? a = some m) (hn : hexValue? b = some n) :
      byte? a b = some (UInt8.ofNat (16 * m + n)) := by
    simp [byte?, hexDigitsValue?, hm, hn]
  constructor
  · intro h
    cases hm : hexValue? a with
    | none => simp [byte?, hexDigitsValue?, hm] at h
    | some m =>
        cases hn : hexValue? b with
        | none => simp [byte?, hexDigitsValue?, hm, hn] at h
        | some n =>
            rw [hexValue?_eq_some_iff] at hm hn
            have hlt : 16 * m + n < 256 := by
              have := hm.lt
              have := hn.lt
              omega
            rw [hread (hexValue?_eq_some_iff.2 hm) (hexValue?_eq_some_iff.2 hn),
              Option.some.injEq] at h
            exact ⟨m, n, hm, hn, by rw [← h, UInt8.toNat_ofNat_of_lt' hlt]⟩
  · rintro ⟨m, n, hm, hn, hv⟩
    rw [hread (hexValue?_eq_some_iff.2 hm) (hexValue?_eq_some_iff.2 hn), ← hv, UInt8.ofNat_toNat]

/-- Six digits give the color that they spell, and nothing else gives one. -/
theorem ofDigits?_eq_some_iff {cs : List Char} {c : Color} :
    ofDigits? cs = some c ↔ SpellsDigits cs c := by
  constructor
  · intro h
    unfold ofDigits? at h
    split at h
    · split at h
      · next hred hgreen hblue =>
          cases h
          exact .intro (byte?_eq_some_iff.1 hred) (byte?_eq_some_iff.1 hgreen)
            (byte?_eq_some_iff.1 hblue)
      · cases h
    · cases h
  · intro h
    cases h with
    | intro red green blue =>
        simp only [ofDigits?, byte?_eq_some_iff.2 red, byte?_eq_some_iff.2 green,
          byte?_eq_some_iff.2 blue]

theorem SpellsByte.isHex {a b : Char} {v : UInt8} (h : SpellsByte a b v) :
    (hexValue? a).isSome ∧ (hexValue? b).isSome := by
  obtain ⟨m, n, hm, hn, -⟩ := h
  exact ⟨Option.isSome_of_eq_some (hexValue?_eq_some_iff.2 hm),
    Option.isSome_of_eq_some (hexValue?_eq_some_iff.2 hn)⟩

/-- Whatever spells a color is made of hexadecimal digits. -/
theorem SpellsDigits.isHex {cs : List Char} {c : Color} (h : SpellsDigits cs c) :
    ∀ d ∈ cs, (hexValue? d).isSome := by
  cases h with
  | intro red green blue =>
      simp only [List.forall_mem_cons]
      exact ⟨red.isHex.1, red.isHex.2, green.isHex.1, green.isHex.2, blue.isHex.1, blue.isHex.2,
        by simp⟩

/-- The mark is no digit, so a text is marked in one way at most. -/
theorem SpellsDigits.not_mark {cs : List Char} {c : Color} : ¬ SpellsDigits ('#' :: cs) c :=
  fun h => absurd (h.isHex '#' List.mem_cons_self) (by decide)

/-- A text without the mark at its front, if there is one. -/
def withoutMark : List Char → List Char
  | '#' :: digits => digits
  | digits => digits

/-- At most one mark is taken away before the digits are read. -/
theorem ofHex?_eq (text : String) : ofHex? text = ofDigits? (withoutMark text.toList) := by
  unfold ofHex?
  split
  · next digits htext => rw [htext, withoutMark]
  · next hmark =>
      rw [withoutMark]
      exact hmark

/-- **Reading a color**: a text is accepted exactly if it spells a color, which
is then read. -/
theorem ofHex?_eq_some_iff {text : String} {c : Color} : ofHex? text = some c ↔ Spells text c := by
  rw [ofHex?_eq, ofDigits?_eq_some_iff]
  constructor
  · intro h
    refine ⟨_, h, ?_⟩
    unfold withoutMark
    split
    · next digits htext => exact .inr htext
    · exact .inl rfl
  · rintro ⟨digits, hdigits, htext | htext⟩
    · rw [htext, withoutMark]
      · exact hdigits
      · rintro cs rfl
        exact hdigits.not_mark
    · rw [htext]
      exact hdigits

/-! ## Reading by bytes -/

/-- Reads a number to base 16, perhaps after a plus sign. -/
def signedHexValue? : List Char → Option Nat
  | '+' :: c :: cs => hexDigitsValue? (c :: cs)
  | c :: cs => hexDigitsValue? (c :: cs)
  | [] => none

/-- Reads a byte to base 16. -/
def signedByte? (cs : List Char) : Option UInt8 :=
  (signedHexValue? cs).bind fun n => if n < 256 then some (UInt8.ofNat n) else none

/-- Reads a color by the bytes of its text: there have to be six, all of them
digits, and two make a channel.  Nothing if a cut for the channels fails. -/
def readBytes (text : String) : Option (Option Color) :=
  let digits := withoutMark text.toList
  if (utf8Bytes digits).length = 6 ∧ (utf8Bytes digits).all isHexByte then do
    let red ← sliceBytes? digits 0 2
    let green ← sliceBytes? digits 2 2
    let blue ← sliceBytes? digits 4 2
    return do return ⟨← signedByte? red, ← signedByte? green, ← signedByte? blue⟩
  else some none

/-- A digit is no sign, so the signed reader reads two digits as the byte they
are. -/
theorem signedByte?_of_hex {a b : Char} (ha : (hexValue? a).isSome) (hb : (hexValue? b).isSome) :
    signedByte? [a, b] = byte? a b := by
  obtain ⟨m, hm⟩ := Option.isSome_iff_exists.1 ha
  obtain ⟨n, hn⟩ := Option.isSome_iff_exists.1 hb
  have hsign : a ≠ '+' := by
    rintro rfl
    cases hm
  have hlt : 16 * m + n < 256 := by
    have := (hexValue?_eq_some_iff.1 hm).lt
    have := (hexValue?_eq_some_iff.1 hn).lt
    omega
  have hunsigned : signedHexValue? [a, b] = hexDigitsValue? [a, b] := by
    rw [signedHexValue?]
    rintro c cs rfl
    exact absurd rfl hsign
  have hvalue : hexDigitsValue? [a, b] = some (16 * m + n) := by simp [hexDigitsValue?, hm, hn]
  rw [signedByte?, byte?, hunsigned, hvalue, Option.bind_some, if_pos hlt, Option.map_some]

/-- A cut between digits never falls inside a character. -/
theorem sliceBytes?_of_hex (before part after : List Char)
    (h : ∀ c ∈ before ++ part, (hexValue? c).isSome) :
    sliceBytes? (before ++ (part ++ after)) before.length part.length = some part := by
  have hparts := List.forall_mem_append.1 h
  simp [sliceBytes?, cutBytes?_of_hex hparts.1, cutBytes?_of_hex hparts.2]

theorem sliceBytes?_six {r r' g g' b b' : Char}
    (h : ∀ c ∈ [r, r', g, g', b, b'], (hexValue? c).isSome) :
    sliceBytes? [r, r', g, g', b, b'] 0 2 = some [r, r'] ∧
      sliceBytes? [r, r', g, g', b, b'] 2 2 = some [g, g'] ∧
      sliceBytes? [r, r', g, g', b, b'] 4 2 = some [b, b'] := by
  have hfront (k : Nat) : ∀ c ∈ [r, r', g, g', b, b'].take k, (hexValue? c).isSome :=
    fun c hc => h c (List.mem_of_mem_take hc)
  exact ⟨sliceBytes?_of_hex [] [r, r'] [g, g', b, b'] (hfront 2),
    sliceBytes?_of_hex [r, r'] [g, g'] [b, b'] (hfront 4),
    sliceBytes?_of_hex [r, r', g, g'] [b, b'] [] h⟩

/-- Six bytes that are digits are six characters, with cuts between them. -/
theorem readBytes_eq (text : String) : readBytes text = some (ofHex? text) := by
  rw [ofHex?_eq, readBytes]
  generalize withoutMark text.toList = digits
  split
  · next h =>
      have hhex : ∀ c ∈ digits, (hexValue? c).isSome := by
        rw [all_isHexByte_utf8Bytes, List.all_eq_true] at h
        exact h.2
      rw [length_utf8Bytes_of_hex hhex] at h
      match digits, h.1 with
      | [r, r', g, g', b, b'], _ =>
          obtain ⟨hred, hgreen, hblue⟩ := sliceBytes?_six hhex
          simp only [List.forall_mem_cons] at hhex
          obtain ⟨hr, hr', hg, hg', hb, hb', -⟩ := hhex
          simp only [hred, hgreen, hblue, signedByte?_of_hex hr hr', signedByte?_of_hex hg hg',
            signedByte?_of_hex hb hb', Option.bind_eq_bind, Option.bind_some, pure, ofDigits?]
          cases byte? r r' with
          | none => rfl
          | some red =>
              cases byte? g g' with
              | none => rfl
              | some green => cases byte? b b' <;> rfl
  · next h =>
      rw [Option.some.injEq, eq_comm, Option.eq_none_iff_forall_ne_some]
      intro c hc
      have hspells := ofDigits?_eq_some_iff.1 hc
      refine h ⟨?_, ?_⟩
      · rw [length_utf8Bytes_of_hex hspells.isHex]
        cases hspells
        rfl
      · rw [all_isHexByte_utf8Bytes, List.all_eq_true]
        exact hspells.isHex

/-! ## Other spellings of a color -/

/-- Two texts differ at most in the case of letters. -/
def SameLetters (text other : String) : Prop :=
  text.toList.map Char.toLower = other.toList.map Char.toLower

theorem byte?_toLower (a b : Char) : byte? a.toLower b.toLower = byte? a b := by
  simp [byte?, hexDigitsValue?, hexValue?_toLower]

/-- The case of the digits does not matter. -/
theorem ofDigits?_map_toLower (cs : List Char) :
    ofDigits? (cs.map Char.toLower) = ofDigits? cs := by
  match cs with
  | [r, r', g, g', b, b'] => simp only [List.map_cons, List.map_nil, ofDigits?, byte?_toLower]
  | [] | [_] | [_, _] | [_, _, _] | [_, _, _, _] | [_, _, _, _, _] => rfl
  | _ :: _ :: _ :: _ :: _ :: _ :: _ :: _ => rfl

/-- The mark is no letter. -/
theorem toLower_eq_mark_iff {c : Char} : c.toLower = '#' ↔ c = '#' := by
  by_cases hc : c.toNat < 128
  · exact forall_ascii (P := fun d => d.toLower = '#' ↔ d = '#') (by decide +kernel) hc
  · rw [toLower_of_not_lt hc]

theorem withoutMark_map_toLower (cs : List Char) :
    withoutMark (cs.map Char.toLower) = (withoutMark cs).map Char.toLower := by
  cases cs with
  | nil => rfl
  | cons c cs =>
      by_cases hc : c = '#'
      · rw [hc]
        rfl
      · have hlower := mt toLower_eq_mark_iff.1 hc
        rw [withoutMark, withoutMark]
        · exact fun digits h => hc (List.cons.inj h).1
        · exact fun digits h => hlower (List.cons.inj h).1

/-- The case of letters makes no difference, also where the text is no color. -/
theorem ofHex?_of_sameLetters {text other : String} (h : SameLetters text other) :
    ofHex? text = ofHex? other := by
  rw [ofHex?_eq, ofHex?_eq, ← ofDigits?_map_toLower, ← withoutMark_map_toLower, h,
    withoutMark_map_toLower, ofDigits?_map_toLower]

/-- The digits of a color, in the case of the sixteen `digits`. -/
def write (digits : List Char) (c : Color) : List Char :=
  [c.red, c.green, c.blue].flatMap fun v =>
    [digits.getD (v.toNat / 16) '0', digits.getD (v.toNat % 16) '0']

/-- A written color spells itself, in whichever case its digits are written. -/
theorem spellsDigits_write {digits : List Char}
    (h : ∀ n < 16, IsHexDigit (digits.getD n '0') n) (c : Color) :
    SpellsDigits (c.write digits) c := by
  have hbyte (v : UInt8) :
      SpellsByte (digits.getD (v.toNat / 16) '0') (digits.getD (v.toNat % 16) '0') v := by
    have hlt := v.toNat_lt
    exact ⟨_, _, h _ (by omega), h _ (by omega), by omega⟩
  exact .intro (hbyte c.red) (hbyte c.green) (hbyte c.blue)

/-- **Colors**: a text is a color exactly if it is six digits, perhaps after one
mark; every other text is drawn in black, and no cut is inside a character.  The
case of the digits and the mark make no difference, and the digits that are
written for a color are read as the color. -/
theorem ofHex?_accepts_spellings :
    (∀ text c, ofHex? text = some c ↔ Spells text c) ∧
    (∀ text, (¬ ∃ c, Spells text c) → ofHex? text = none ∧ (ofText text).channels = ⟨0, 0, 0⟩) ∧
    (∀ text, readBytes text = some (ofHex? text)) ∧
    (∀ text other, SameLetters text other → ofHex? text = ofHex? other) ∧
    (∀ text c, ofHex? ("#" ++ text) = some c → ofHex? text = some c) ∧
    (∀ text c, ofHex? text = some c → text.toList.head? ≠ some '#' →
      ofHex? ("#" ++ text) = some c) ∧
    ∀ digits ∈ [lowerHexDigits, upperHexDigits], ∀ c,
      ofHex? (String.ofList (write digits c)) = some c := by
  refine ⟨fun _ _ => ofHex?_eq_some_iff, fun text h => ?_, readBytes_eq,
    fun _ _ => ofHex?_of_sameLetters, fun text c h => ?_, fun text c h hmark => ?_,
    fun digits hdigits c => ?_⟩
  · have hnone : ofHex? text = none :=
      Option.eq_none_iff_forall_ne_some.2 fun c hc => h ⟨c, ofHex?_eq_some_iff.1 hc⟩
    refine ⟨hnone, ?_⟩
    rw [ofText, hnone]
    decide +kernel
  · rw [ofHex?_eq_some_iff] at h ⊢
    obtain ⟨digits, hdigits, htext | htext⟩ := h
    · rw [String.toList_append] at htext
      rw [← htext] at hdigits
      exact absurd hdigits SpellsDigits.not_mark
    · rw [String.toList_append] at htext
      exact ⟨digits, hdigits, .inl (List.cons.inj htext).2⟩
  · rw [ofHex?_eq_some_iff] at h ⊢
    obtain ⟨digits, hdigits, htext | htext⟩ := h
    · exact ⟨digits, hdigits, .inr (by rw [String.toList_append, htext]; rfl)⟩
    · exact absurd (by rw [htext]; rfl) hmark
  · have hcase : ∀ n < 16, IsHexDigit (digits.getD n '0') n := by
      revert digits
      decide +kernel
    exact ofHex?_eq_some_iff.2 ⟨_, spellsDigits_write hcase c, .inl String.toList_ofList⟩

end Color

end GlutSketch
