import Mathlib.Data.List.Induction
import Ohmcp.Hex

/-! What the hex decoders take for digits. They cut a text at every second byte: a cut may fall inside
a character, and a plus sign passes for the first digit of a pair. -/

namespace Ohmcp

namespace HexDigits

/-! ### Characters and their bytes -/

def digits : List Char := "0123456789abcdefABCDEF".toList

/-- A hex digit, in either case. -/
def IsDigit (c : Char) : Prop := c ∈ digits

instance (c : Char) : Decidable (IsDigit c) := inferInstanceAs (Decidable (c ∈ digits))

/-- The bytes of some characters. -/
def encode (chars : List Char) : Bytes := chars.flatMap String.utf8EncodeChar

theorem utf8_eq_encode (s : String) : utf8 s = encode s.toList := by
  rw [utf8, ← String.utf8Encode_toList, List.utf8Encode]
  exact List.toList_data_toByteArray

theorem encode_cons (c : Char) (chars : List Char) :
    encode (c :: chars) = String.utf8EncodeChar c ++ encode chars := rfl

/-- A byte that begins a longer character. -/
structure Leads (b : UInt8) : Prop where
  not_digit : hexDigit b = none
  not_plus : b ≠ 0x2B
  not_continuation : isContinuation b = false

/-- The one byte of an ASCII character. -/
structure Spells (b : UInt8) (c : Char) : Prop where
  digit_iff : (hexDigit b).isSome ↔ IsDigit c
  plus_iff : b = 0x2B ↔ c = '+'
  not_continuation : isContinuation b = false

theorem leads_of_le {b : UInt8} (h : 0xc0 ≤ b) : Leads b := by
  have hall : ∀ b : UInt8, 0xc0 ≤ b → hexDigit b = none ∧ b ≠ 0x2B ∧ isContinuation b = false := by
    decide +kernel
  obtain ⟨hdigit, hplus, hcontinuation⟩ := hall b h
  exact ⟨hdigit, hplus, hcontinuation⟩

theorem le_of_bits : ∀ b : UInt8, 0xc0 ≤ b &&& 0x1f ||| 0xc0 ∧ 0xc0 ≤ b &&& 0x0f ||| 0xe0 ∧
    0xc0 ≤ b &&& 0x07 ||| 0xf0 := by
  decide +kernel

theorem continuation_of_bits : ∀ b : UInt8, isContinuation (b &&& 0x3f ||| 0x80) = true := by
  decide +kernel

theorem spells_of_ascii {c : Char} (hsize : c.utf8Size = 1) :
    ∃ b, String.utf8EncodeChar c = [b] ∧ Spells b c := by
  have hall : ∀ n < 128, let b := UInt8.ofNat n
      ((hexDigit b).isSome ↔ IsDigit (Char.ofNat n)) ∧ (b = 0x2B ↔ Char.ofNat n = '+') ∧
        isContinuation b = false := by
    decide +kernel
  have hsmall : c.toNat < 128 := Nat.lt_succ_of_le (Char.utf8Size_eq_one_iff.mp hsize)
  obtain ⟨hdigit, hplus, hcontinuation⟩ := hall c.toNat hsmall
  rw [Char.ofNat_toNat] at hdigit hplus
  exact ⟨UInt8.ofNat c.toNat, String.utf8EncodeChar_eq_singleton hsize, hdigit, hplus,
    hcontinuation⟩

/-- A character is ASCII, or has two bytes, or more. -/
theorem encodeChar_cases (c : Char) :
    (c.utf8Size = 1 ∧ ∃ b, String.utf8EncodeChar c = [b] ∧ Spells b c) ∨
    (c.utf8Size = 2 ∧ ∃ lead next, String.utf8EncodeChar c = [lead, next] ∧ Leads lead ∧
      isContinuation next = true) ∨
    (2 < c.utf8Size ∧ ∃ lead next third rest,
      String.utf8EncodeChar c = lead :: next :: third :: rest ∧ Leads lead ∧
        isContinuation next = true ∧ isContinuation third = true) := by
  rcases c.utf8Size_eq with hsize | hsize | hsize | hsize
  · exact Or.inl ⟨hsize, spells_of_ascii hsize⟩
  · exact Or.inr (Or.inl ⟨hsize, _, _, String.utf8EncodeChar_eq_cons_cons hsize,
      leads_of_le (le_of_bits _).1, continuation_of_bits _⟩)
  · exact Or.inr (Or.inr ⟨by omega, _, _, _, _, String.utf8EncodeChar_eq_cons_cons_cons hsize,
      leads_of_le (le_of_bits _).2.1, continuation_of_bits _, continuation_of_bits _⟩)
  · exact Or.inr (Or.inr ⟨by omega, _, _, _, _, String.utf8EncodeChar_eq_cons_cons_cons_cons hsize,
      leads_of_le (le_of_bits _).2.2, continuation_of_bits _, continuation_of_bits _⟩)

/-- A text does not begin inside a character. -/
theorem head_encode (chars : List Char) : (encode chars).head?.any isContinuation = false := by
  cases chars with
  | nil => rfl
  | cons c chars =>
      rw [encode_cons]
      rcases encodeChar_cases c with ⟨_, b, hbytes, hspells⟩ | ⟨_, lead, next, hbytes, hleads, _⟩ |
        ⟨_, lead, next, third, rest, hbytes, hleads, _⟩
      · rw [hbytes]
        exact hspells.not_continuation
      · rw [hbytes]
        exact hleads.not_continuation
      · rw [hbytes]
        exact hleads.not_continuation

/-! ### Pairs of digits -/

/-- A pair that `u8::from_str_radix` takes for a byte. -/
def IsParsed (pair : Char × Char) : Prop := (pair.1 = '+' ∨ IsDigit pair.1) ∧ IsDigit pair.2

def spell (pairs : List (Char × Char)) : List Char := pairs.flatMap fun pair => [pair.1, pair.2]

def byteOf (c : Char) : UInt8 := UInt8.ofNat c.toNat

def value (pair : Char × Char) : UInt8 :=
  (fromStrRadix16 (byteOf pair.1) (byteOf pair.2)).getD 0

/-- The decoder stands inside a character after the next two bytes. -/
def Cut : List Char → Prop
  | [] => False
  | [c] => 2 < c.utf8Size
  | c :: d :: _ => 2 < c.utf8Size ∨ (c.utf8Size = 1 ∧ 1 < d.utf8Size)

theorem spell_cons (pair : Char × Char) (pairs : List (Char × Char)) :
    spell (pair :: pairs) = pair.1 :: pair.2 :: spell pairs := rfl

theorem length_spell (pairs : List (Char × Char)) : (spell pairs).length = 2 * pairs.length := by
  induction pairs with
  | nil => rfl
  | cons pair pairs ih =>
      rw [spell_cons, List.length_cons, List.length_cons, ih, List.length_cons]
      omega

theorem encodeChar_parsed {c : Char} (h : c ∈ '+' :: digits) :
    String.utf8EncodeChar c = [byteOf c] ∧ c.utf8Size = 1 := by
  have hall : ('+' :: digits).all (fun c =>
      decide (String.utf8EncodeChar c = [byteOf c] ∧ c.utf8Size = 1)) = true := by
    decide +kernel
  exact of_decide_eq_true (List.all_eq_true.mp hall c h)

theorem fromStrRadix16_value {c d : Char} (hc : c ∈ '+' :: digits) (hd : IsDigit d) :
    fromStrRadix16 (byteOf c) (byteOf d) = some (value (c, d)) := by
  have hall : ('+' :: digits).all (fun c => digits.all fun d =>
      decide (fromStrRadix16 (byteOf c) (byteOf d) = some (value (c, d)))) = true := by
    decide +kernel
  exact of_decide_eq_true (List.all_eq_true.mp (List.all_eq_true.mp hall c hc) d hd)

/-- A pair of digits is its value, written in lower case. -/
theorem hex_value {c d : Char} (hc : IsDigit c) (hd : IsDigit d) :
    [Nat.digitChar ((value (c, d)).toNat / 16), Nat.digitChar ((value (c, d)).toNat % 16)] =
      [c.toLower, d.toLower] := by
  have hall : digits.all (fun c => digits.all fun d =>
      decide ([Nat.digitChar ((value (c, d)).toNat / 16),
        Nat.digitChar ((value (c, d)).toNat % 16)] = [c.toLower, d.toLower])) = true := by
    decide +kernel
  exact of_decide_eq_true (List.all_eq_true.mp (List.all_eq_true.mp hall c hc) d hd)

theorem plus_not_digit : ¬ IsDigit '+' := by decide

theorem IsDigit.mem_signed {c : Char} (h : IsDigit c) : c ∈ '+' :: digits := List.mem_cons_of_mem _ h

theorem IsParsed.mem {pair : Char × Char} (h : IsParsed pair) : pair.1 ∈ '+' :: digits :=
  List.mem_cons.mpr h.1

theorem isParsed_iff {c d : Char} {first second : UInt8} (hfirst : Spells first c)
    (hsecond : Spells second d) :
    IsParsed (c, d) ↔ (fromStrRadix16 first second).isSome := by
  rw [IsParsed, ← hfirst.plus_iff, ← hfirst.digit_iff, ← hsecond.digit_iff, fromStrRadix16]
  by_cases hplus : first = 0x2B
  · rw [if_pos hplus, Option.isSome_map]
    simp only [hplus, true_or, true_and]
  · rw [if_neg hplus]
    cases hexDigit first <;> cases hexDigit second <;> simp [hplus]

/-! ### What the loop returns -/

/-- A pair that is read puts its byte in front of what the rest decodes to. -/
theorem unhexPairs_pair {pair : Char × Char} (h : IsParsed pair) (rest : List Char) :
    unhexPairs (encode (pair.1 :: pair.2 :: rest)) =
      (unhexPairs (encode rest)).map (Option.map (value pair :: ·)) := by
  obtain ⟨hfirst, _⟩ := encodeChar_parsed h.mem
  obtain ⟨hsecond, _⟩ := encodeChar_parsed h.2.mem_signed
  have hvalue := fromStrRadix16_value h.mem h.2
  have hhead := head_encode rest
  rw [encode_cons, encode_cons, hfirst, hsecond, List.singleton_append, List.singleton_append,
    unhexPairs, hhead, hvalue]
  rfl

theorem unhexPairs_spell (pairs : List (Char × Char)) (h : ∀ pair ∈ pairs, IsParsed pair)
    (rest : List Char) :
    unhexPairs (encode (spell pairs ++ rest)) =
      (unhexPairs (encode rest)).map (Option.map (pairs.map value ++ ·)) := by
  induction pairs with
  | nil =>
      rw [show spell [] ++ rest = rest from rfl]
      cases unhexPairs (encode rest) with
      | error e => rfl
      | ok result => cases result <;> rfl
  | cons pair pairs ih =>
      rw [spell_cons, List.cons_append, List.cons_append, unhexPairs_pair (h pair List.mem_cons_self),
        ih fun pair hmem => h pair (List.mem_cons_of_mem _ hmem)]
      cases unhexPairs (encode rest) with
      | error e => rfl
      | ok result => cases result <;> rfl

theorem unhexPairs_cut {rest : List Char} (h : Cut rest) : unhexPairs (encode rest) = .error ⟨⟩ := by
  have hlong : ∀ (c : Char) (tail : List Char), 2 < c.utf8Size →
      unhexPairs (encode (c :: tail)) = .error ⟨⟩ := by
    intro c tail hsize
    rcases encodeChar_cases c with ⟨hone, _⟩ | ⟨htwo, _⟩ |
      ⟨_, lead, next, third, more, hbytes, _, _, hthird⟩
    · omega
    · omega
    · rw [encode_cons, hbytes, List.cons_append, List.cons_append, List.cons_append, unhexPairs,
        List.head?_cons, Option.any_some, hthird, if_pos rfl]
  cases rest with
  | nil => exact h.elim
  | cons c tail =>
      cases tail with
      | nil => exact hlong c [] h
      | cons d tail =>
          rcases h with hsize | ⟨hone, hmore⟩
          · exact hlong c (d :: tail) hsize
          · -- the slice ends behind the first byte of `d`
            obtain ⟨b, hfirst, _⟩ := spells_of_ascii hone
            have hsecond : ∃ lead next more, String.utf8EncodeChar d = lead :: next :: more ∧
                isContinuation next = true := by
              rcases encodeChar_cases d with ⟨hsize, _⟩ | ⟨_, lead, next, hbytes, _, hnext⟩ |
                ⟨_, lead, next, third, more, hbytes, _, hnext, _⟩
              · omega
              · exact ⟨lead, next, [], hbytes, hnext⟩
              · exact ⟨lead, next, third :: more, hbytes, hnext⟩
            obtain ⟨lead, next, more, hbytes, hnext⟩ := hsecond
            rw [encode_cons, encode_cons, hfirst, hbytes, List.singleton_append, List.cons_append,
              List.cons_append, unhexPairs, List.head?_cons, Option.any_some, hnext, if_pos rfl]

theorem unhexPairs_stopped {rest : List Char} (hcut : ¬ Cut rest) (hne : rest ≠ [])
    (h : ∀ c d tail, rest = c :: d :: tail → ¬ IsParsed (c, d)) :
    unhexPairs (encode rest) = .ok none := by
  cases rest with
  | nil => exact absurd rfl hne
  | cons c tail =>
      rcases encodeChar_cases c with ⟨hone, b, hfirst, hspells⟩ | ⟨htwo, lead, next, hbytes, hleads, _⟩ |
        ⟨hmore, _⟩
      · cases tail with
        | nil =>
            rw [encode_cons, hfirst]
            rfl
        | cons d tail =>
            have hsize : d.utf8Size = 1 := by
              have hnot : ¬ 1 < d.utf8Size := fun hlt => hcut (Or.inr ⟨hone, hlt⟩)
              have hpos := d.utf8Size_pos
              omega
            obtain ⟨e, hsecond, hspellsd⟩ := spells_of_ascii hsize
            have hparse : fromStrRadix16 b e = none := by
              rw [← Option.not_isSome_iff_eq_none, ← isParsed_iff hspells hspellsd]
              exact h c d tail rfl
            rw [encode_cons, encode_cons, hfirst, hsecond, List.singleton_append,
              List.singleton_append, unhexPairs, head_encode, hparse]
            rfl
      · have hparse : fromStrRadix16 lead next = none := by
          rw [fromStrRadix16, if_neg hleads.not_plus, hleads.not_digit]
        rw [encode_cons, hbytes, List.cons_append, List.cons_append, List.nil_append, unhexPairs,
          head_encode, hparse]
        rfl
      · cases tail with
        | nil => exact absurd hmore hcut
        | cons d tail => exact absurd (Or.inl hmore) hcut

/-- A text is some pairs that are read and a rest that does not begin with one. -/
theorem exists_parsed (chars : List Char) :
    ∃ pairs rest, chars = spell pairs ++ rest ∧ (∀ pair ∈ pairs, IsParsed pair) ∧
      ∀ c d tail, rest = c :: d :: tail → ¬ IsParsed (c, d) := by
  induction chars using List.twoStepInduction with
  | nil => exact ⟨[], [], rfl, by simp, by simp⟩
  | singleton c => exact ⟨[], [c], rfl, by simp, by simp⟩
  | cons_cons c d chars ih _ =>
      by_cases h : IsParsed (c, d)
      · obtain ⟨pairs, rest, rfl, hpairs, hrest⟩ := ih
        refine ⟨(c, d) :: pairs, rest, rfl, ?_, hrest⟩
        exact List.forall_mem_cons.mpr ⟨h, hpairs⟩
      · refine ⟨[], c :: d :: chars, rfl, by simp, ?_⟩
        rintro c' d' tail heq
        obtain ⟨rfl, rfl, rfl⟩ : c = c' ∧ d = d' ∧ chars = tail := by simpa using heq
        exact h

theorem unhexPairs_error_iff (chars : List Char) : unhexPairs (encode chars) = .error ⟨⟩ ↔
    ∃ pairs rest, chars = spell pairs ++ rest ∧ (∀ pair ∈ pairs, IsParsed pair) ∧ Cut rest := by
  constructor
  · intro herror
    obtain ⟨pairs, rest, rfl, hpairs, hrest⟩ := exists_parsed chars
    refine ⟨pairs, rest, rfl, hpairs, ?_⟩
    by_contra hcut
    rw [unhexPairs_spell pairs hpairs] at herror
    by_cases hne : rest = []
    · subst hne
      cases herror
    · rw [unhexPairs_stopped hcut hne hrest] at herror
      cases herror
  · rintro ⟨pairs, rest, rfl, hpairs, hcut⟩
    rw [unhexPairs_spell pairs hpairs, unhexPairs_cut hcut]
    rfl

theorem unhexPairs_some_iff (chars : List Char) (data : Bytes) :
    unhexPairs (encode chars) = .ok (some data) ↔
      ∃ pairs, chars = spell pairs ∧ (∀ pair ∈ pairs, IsParsed pair) ∧ pairs.map value = data := by
  constructor
  · intro hsome
    obtain ⟨pairs, rest, rfl, hpairs, hrest⟩ := exists_parsed chars
    rw [unhexPairs_spell pairs hpairs] at hsome
    by_cases hcut : Cut rest
    · rw [unhexPairs_cut hcut] at hsome
      cases hsome
    · by_cases hne : rest = []
      · subst hne
        have heq : pairs.map value ++ [] = data := Option.some.inj (Except.ok.inj hsome)
        rw [List.append_nil] at heq
        exact ⟨pairs, List.append_nil _, hpairs, heq⟩
      · rw [unhexPairs_stopped hcut hne hrest] at hsome
        cases hsome
  · rintro ⟨pairs, rfl, hpairs, rfl⟩
    have hdecoded := unhexPairs_spell pairs hpairs []
    rw [List.append_nil] at hdecoded
    rw [hdecoded, show encode [] = [] from rfl, unhexPairs]
    exact congrArg (fun bytes => Except.ok (some bytes)) (List.append_nil _)

/-! ### Exact decoding -/

/-- `2 * n` hex digits, in either case. -/
def HexPairs (s : String) (n : ℕ) : Prop := s.toList.length = 2 * n ∧ ∀ c ∈ s.toList, IsDigit c

/-- The decoder returns, the bytes of a well-formed text and of no other. -/
structure DecodesExactly (s : String) (wellFormed : Prop) (decoded : Except Panicked (Option Bytes)) :
    Prop where
  returns : ∃ result, decoded = .ok result
  some_iff : ∀ data, decoded = .ok (some data) ↔ wellFormed ∧ hex data = s.toLower
  none_iff : decoded = .ok none ↔ ¬ wellFormed

/-- What the decoder takes for digits are digits, and it does not stop inside a character. -/
structure Plain (s : String) : Prop where
  unsigned : ∀ pairs, s.toList = spell pairs → (∀ pair ∈ pairs, IsParsed pair) →
    ∀ pair ∈ pairs, pair.1 ≠ '+'
  uncut : ∀ pairs rest, s.toList = spell pairs ++ rest → (∀ pair ∈ pairs, IsParsed pair) → ¬ Cut rest

theorem IsDigit.isParsed {c d : Char} (hc : IsDigit c) (hd : IsDigit d) : IsParsed (c, d) :=
  ⟨Or.inr hc, hd⟩

theorem exists_pairs (n : ℕ) {chars : List Char} (hlen : chars.length = 2 * n)
    (h : ∀ c ∈ chars, IsDigit c) :
    ∃ pairs, chars = spell pairs ∧ ∀ pair ∈ pairs, IsParsed pair := by
  obtain ⟨pairs, rest, rfl, hpairs, hrest⟩ := exists_parsed chars
  cases rest with
  | nil => exact ⟨pairs, List.append_nil _, hpairs⟩
  | cons c tail =>
      cases tail with
      | nil =>
          rw [List.length_append, length_spell, List.length_singleton] at hlen
          omega
      | cons d tail =>
          have hc : IsDigit c := h c (by simp)
          have hd : IsDigit d := h d (by simp)
          exact absurd (hc.isParsed hd) (hrest c d tail rfl)

theorem digit_of_spell {pairs : List (Char × Char)} (h : ∀ pair ∈ pairs, IsParsed pair)
    (hunsigned : ∀ pair ∈ pairs, pair.1 ≠ '+') : ∀ c ∈ spell pairs, IsDigit c := by
  intro c hc
  obtain ⟨pair, hpair, hmem⟩ := List.mem_flatMap.mp hc
  obtain ⟨hfirst, hsecond⟩ := h pair hpair
  have hdigit : IsDigit pair.1 := hfirst.resolve_left (hunsigned pair hpair)
  simp only [List.mem_cons, List.not_mem_nil, or_false] at hmem
  rcases hmem with rfl | rfl
  · exact hdigit
  · exact hsecond

theorem hex_map_value {pairs : List (Char × Char)} {s : String} (hs : s.toList = spell pairs)
    (h : ∀ c ∈ s.toList, IsDigit c) : hex (pairs.map value) = s.toLower := by
  have hlower : s.toLower = s.map Char.toLower := rfl
  rw [hlower, ← String.toList_inj, String.toList_map, hs, hex, String.toList_ofList]
  rw [hs] at h
  clear hs
  induction pairs with
  | nil => rfl
  | cons pair pairs ih =>
      rw [spell_cons, List.forall_mem_cons, List.forall_mem_cons] at h
      rw [List.map_cons, List.flatMap_cons, ih h.2.2, hex_value h.1 h.2.1]
      rfl

/-- The decoding loop is exact for a plain text, and for no other. -/
theorem unhexPairs_exact_iff (s : String) :
    DecodesExactly s (∃ n, HexPairs s n) (unhexPairs (utf8 s)) ↔ Plain s := by
  rw [utf8_eq_encode]
  constructor
  · intro hexact
    constructor
    · intro pairs hpairs hparsed pair hpair hplus
      have hsome := (unhexPairs_some_iff s.toList _).mpr ⟨pairs, hpairs, hparsed, rfl⟩
      obtain ⟨⟨n, _, hdigits⟩, _⟩ := (hexact.some_iff _).mp hsome
      have hmem : pair.1 ∈ s.toList := by
        rw [hpairs]
        exact List.mem_flatMap.mpr ⟨pair, hpair, List.mem_cons_self⟩
      exact plus_not_digit (hplus ▸ hdigits _ hmem)
    · intro pairs rest hpairs hparsed hcut
      have herror := (unhexPairs_error_iff s.toList).mpr ⟨pairs, rest, hpairs, hparsed, hcut⟩
      obtain ⟨result, hresult⟩ := hexact.returns
      rw [herror] at hresult
      cases hresult
  · intro hplain
    have hreturns : ∃ result, unhexPairs (encode s.toList) = .ok result := by
      cases hcase : unhexPairs (encode s.toList) with
      | error e =>
          obtain ⟨pairs, rest, hpairs, hparsed, hcut⟩ := (unhexPairs_error_iff s.toList).mp hcase
          exact absurd hcut (hplain.uncut pairs rest hpairs hparsed)
      | ok result => exact ⟨result, rfl⟩
    -- the digits in front of the stop are the whole text
    have hformed : (∃ n, HexPairs s n) ↔ ∃ data, unhexPairs (encode s.toList) = .ok (some data) := by
      constructor
      · rintro ⟨n, hlen, hdigits⟩
        obtain ⟨pairs, hpairs, hparsed⟩ := exists_pairs n hlen hdigits
        exact ⟨_, (unhexPairs_some_iff s.toList _).mpr ⟨pairs, hpairs, hparsed, rfl⟩⟩
      · rintro ⟨data, hsome⟩
        obtain ⟨pairs, hpairs, hparsed, _⟩ := (unhexPairs_some_iff s.toList data).mp hsome
        have hdigits := digit_of_spell hparsed (hplain.unsigned pairs hpairs hparsed)
        refine ⟨pairs.length, ?_, hpairs ▸ hdigits⟩
        rw [hpairs, length_spell]
    constructor
    · exact hreturns
    · intro data
      constructor
      · intro hsome
        have hwell := hformed.mpr ⟨data, hsome⟩
        obtain ⟨pairs, hpairs, hparsed, rfl⟩ := (unhexPairs_some_iff s.toList data).mp hsome
        obtain ⟨n, hlen, hdigits⟩ := hwell
        exact ⟨⟨n, hlen, hdigits⟩, hex_map_value hpairs hdigits⟩
      · rintro ⟨hwell, hlower⟩
        obtain ⟨data', hsome⟩ := hformed.mp hwell
        obtain ⟨pairs, hpairs, hparsed, rfl⟩ := (unhexPairs_some_iff s.toList data').mp hsome
        obtain ⟨n, _, hdigits⟩ := hwell
        have heq : hex (pairs.map value) = hex data := (hex_map_value hpairs hdigits).trans hlower.symm
        rw [hsome, hex_injective heq]
    · rw [hformed]
      obtain ⟨result, hresult⟩ := hreturns
      rw [hresult]
      cases result <;> simp

/-- A text that is well formed has as many bytes as characters. -/
theorem HexPairs.length_utf8 {s : String} {n : ℕ} (h : HexPairs s n) : (utf8 s).length = 2 * n := by
  rw [utf8_eq_encode, ← h.1]
  have hdigits := h.2
  generalize s.toList = chars at hdigits
  induction chars with
  | nil => rfl
  | cons c chars ih =>
      rw [List.forall_mem_cons] at hdigits
      rw [encode_cons, (encodeChar_parsed hdigits.1.mem_signed).1, List.length_append, ih hdigits.2,
        List.length_singleton, List.length_cons]
      omega

theorem decodesExactly_none {s : String} {wellFormed : Prop} (h : ¬ wellFormed) :
    DecodesExactly s wellFormed (.ok none) where
  returns := ⟨none, rfl⟩
  some_iff data := by simp [h]
  none_iff := by simp [h]

theorem unhex_exact_iff (s : String) : DecodesExactly s (∃ n, HexPairs s n) (unhex s) ↔
    (utf8 s).length % 2 ≠ 0 ∨ Plain s := by
  by_cases hodd : (utf8 s).length % 2 ≠ 0
  · have hnot : ¬ ∃ n, HexPairs s n := by
      rintro ⟨n, hpairs⟩
      have hlen := hpairs.length_utf8
      omega
    rw [unhex, if_pos hodd]
    exact iff_of_true (decodesExactly_none hnot) (Or.inl hodd)
  · rw [unhex, if_neg hodd, unhexPairs_exact_iff]
    exact (or_iff_right hodd).symm

/-- Two bytes of text are one byte of data. -/
theorem length_of_unhexPairs {data out : Bytes} (h : unhexPairs data = .ok (some out)) :
    data.length = 2 * out.length := by
  induction data using unhexPairs.induct generalizing out with
  | case1 =>
      obtain rfl : [] = out := Option.some.inj (Except.ok.inj h)
      rfl
  | case2 b => cases h
  | case3 first second rest hcut =>
      rw [unhexPairs, if_pos hcut] at h
      cases h
  | case4 first second rest hcut hparse =>
      rw [unhexPairs, if_neg hcut, hparse] at h
      cases h
  | case5 first second rest hcut byte hparse ih =>
      rw [unhexPairs, if_neg hcut, hparse] at h
      cases hcase : unhexPairs rest with
      | error e =>
          rw [hcase] at h
          cases h
      | ok result =>
          rw [hcase] at h
          cases result with
          | none => cases h
          | some tail =>
              obtain rfl : byte :: tail = out := Option.some.inj (Except.ok.inj h)
              rw [List.length_cons, List.length_cons, ih hcase, List.length_cons]
              omega

/-- A 64-byte text is decoded as any text is. -/
theorem unhex32_bytes {s : String} (hlen : (utf8 s).length = 64) :
    (unhex32 s).map (Option.map Bytes32.bytes) = unhexPairs (utf8 s) := by
  rw [unhex32, if_neg (not_not_intro hlen)]
  cases hcase : unhexPairs (utf8 s) with
  | error e => rfl
  | ok result =>
      cases result with
      | none => rfl
      | some out =>
          have hout : out.length = 32 := by
            have hdouble := length_of_unhexPairs hcase
            omega
          simp only [Except.map, Option.bind_some, hout, dif_pos, Option.map_some]

theorem unhex32_exact_iff (s : String) :
    DecodesExactly s (HexPairs s 32) ((unhex32 s).map (Option.map Bytes32.bytes)) ↔
      (utf8 s).length ≠ 64 ∨ Plain s := by
  by_cases hlen : (utf8 s).length ≠ 64
  · have hnot : ¬ HexPairs s 32 := fun hpairs => hlen hpairs.length_utf8
    rw [unhex32, if_pos hlen]
    exact iff_of_true (decodesExactly_none hnot) (Or.inl hlen)
  · have hformed : HexPairs s 32 ↔ ∃ n, HexPairs s n := by
      constructor
      · intro hpairs
        exact ⟨32, hpairs⟩
      · rintro ⟨n, hpairs⟩
        have hdouble := hpairs.length_utf8
        obtain rfl : n = 32 := by omega
        exact hpairs
    rw [unhex32_bytes (not_not.mp hlen), hformed, unhexPairs_exact_iff]
    exact (or_iff_right hlen).symm

theorem DecodesExactly.lower_inj {left right : String} {wellFormed wellFormed' : Prop}
    {decoded decoded' : Except Panicked (Option Bytes)} (hleft : DecodesExactly left wellFormed decoded)
    (hright : DecodesExactly right wellFormed' decoded') (hl : left.toLower = left)
    (hr : right.toLower = right) {data : Bytes} (h : decoded = .ok (some data))
    (h' : decoded' = .ok (some data)) : left = right := by
  calc
    left = hex data := by rw [((hleft.some_iff data).mp h).2, hl]
    _ = right := by rw [((hright.some_iff data).mp h').2, hr]

/-- A text of digits is plain. -/
theorem plain_of_digits {s : String} (h : ∀ c ∈ s.toList, IsDigit c) : Plain s where
  unsigned pairs hpairs _ pair hpair hplus := by
    have hmem : pair.1 ∈ s.toList := by
      rw [hpairs]
      exact List.mem_flatMap.mpr ⟨pair, hpair, List.mem_cons_self⟩
    exact plus_not_digit (hplus ▸ h _ hmem)
  uncut pairs rest hpairs _ hcut := by
    have hascii : ∀ c ∈ rest, c.utf8Size = 1 := by
      intro c hc
      have hmem : c ∈ s.toList := by
        rw [hpairs]
        exact List.mem_append_right _ hc
      exact (encodeChar_parsed (h c hmem).mem_signed).2
    cases rest with
    | nil => exact hcut
    | cons c tail =>
        have hc := hascii c List.mem_cons_self
        cases tail with
        | nil => exact absurd hcut (by rw [Cut, hc]; decide)
        | cons d tail =>
            have hd := hascii d (by simp)
            exact absurd hcut (by rw [Cut, hc, hd]; decide)

/-- Decoding is total and exact for the texts of an odd or, in `unhex32`, another length and for the
plain ones. What was encoded is decoded, and two plain lower-case texts never share their bytes. -/
theorem decodesExactly_iff (s : String) :
    (DecodesExactly s (∃ n, HexPairs s n) (unhex s) ↔ (utf8 s).length % 2 ≠ 0 ∨ Plain s) ∧
    (DecodesExactly s (HexPairs s 32) ((unhex32 s).map (Option.map Bytes32.bytes)) ↔
      (utf8 s).length ≠ 64 ∨ Plain s) ∧
    (∀ data, unhex (hex data) = .ok (some data)) ∧
    (∀ key : Bytes32, unhex32 (hex key.bytes) = .ok (some key)) ∧
    ∀ other, Plain s → Plain other → s.toLower = s → other.toLower = other →
      (∀ data, unhex s = .ok (some data) → unhex other = .ok (some data) → s = other) ∧
      ∀ key, unhex32 s = .ok (some key) → unhex32 other = .ok (some key) → s = other := by
  refine ⟨unhex_exact_iff s, unhex32_exact_iff s, unhex_hex, unhex32_hex, ?_⟩
  intro other hs hother hlower hlower'
  constructor
  · intro data h h'
    exact ((unhex_exact_iff s).mpr (Or.inr hs)).lower_inj
      ((unhex_exact_iff other).mpr (Or.inr hother)) hlower hlower' h h'
  · intro key h h'
    have hbytes : (unhex32 s).map (Option.map Bytes32.bytes) = .ok (some key.bytes) := by
      rw [h]
      rfl
    have hbytes' : (unhex32 other).map (Option.map Bytes32.bytes) = .ok (some key.bytes) := by
      rw [h']
      rfl
    exact ((unhex32_exact_iff s).mpr (Or.inr hs)).lower_inj
      ((unhex32_exact_iff other).mpr (Or.inr hother)) hlower hlower' hbytes hbytes'

theorem decodesExactly_mixed : DecodesExactly "0aFf" (∃ n, HexPairs "0aFf" n) (unhex "0aFf") := by
  have hdigits : "0aFf".toList.all (fun c => decide (IsDigit c)) = true := by decide +kernel
  have hplain : Plain "0aFf" := plain_of_digits fun c hc =>
    of_decide_eq_true (List.all_eq_true.mp hdigits c hc)
  exact (decodesExactly_iff "0aFf").1.mpr (Or.inr hplain)

/-- A slice ends inside a character, and a signed pair is a byte. -/
theorem unhex_signed_cut :
    unhex "aéb" = .error ⟨⟩ ∧ unhex "+5" = .ok (some [5]) ∧ unhex "05" = .ok (some [5]) ∧
    unhex32 (String.ofList ('a' :: 'é' :: List.replicate 61 'b')) = .error ⟨⟩ ∧
    ¬ DecodesExactly "aéb" (∃ n, HexPairs "aéb" n) (unhex "aéb") ∧
    ¬ DecodesExactly "+5" (∃ n, HexPairs "+5" n) (unhex "+5") := by
  have hcut : unhex "aéb" = .error ⟨⟩ := by decide +kernel
  have hsigned : unhex "+5" = .ok (some [5]) := by decide +kernel
  have hplain : unhex "05" = .ok (some [5]) := by decide +kernel
  have hkey : unhex32 (String.ofList ('a' :: 'é' :: List.replicate 61 'b')) = .error ⟨⟩ := by
    decide +kernel
  refine ⟨hcut, hsigned, hplain, hkey, ?_, ?_⟩
  · intro hexact
    obtain ⟨result, hresult⟩ := hexact.returns
    rw [hcut] at hresult
    cases hresult
  · intro hexact
    obtain ⟨⟨n, _, hdigits⟩, _⟩ := (hexact.some_iff [5]).mp hsigned
    exact plus_not_digit (hdigits '+' (by decide))

end HexDigits

end Ohmcp
