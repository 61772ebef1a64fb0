import FuzzHarness.Text.Base64
import FuzzHarness.Text.Blank

/-!
# Laws of Base64

Decoding undoes encoding, whatever the number of octets in the last group. Encoded text
is made of symbols and padding alone, none of which is blank, ends a line, or delimits
anything where such text is embedded.
-/

namespace FuzzHarness.Text.Base64

private def code (n : Nat) : UInt8 :=
  UInt8.ofNat (symbol n).toNat

private theorem utf8_symbol : ∀ n < 64, String.utf8EncodeChar (symbol n) = [code n] := by
  decide

private theorem value?_code : ∀ n < 64, value? (code n) = some n := by
  decide

private theorem code_ne_pad : ∀ n < 64, code n ≠ pad := by
  decide

private theorem valueAt_code (offset : Nat) {n : Nat} (h : n < 64) :
    valueAt offset (code n) = .ok n := by
  rw [valueAt, value?_code n h]

private def codes : Bytes → Bytes
  | [] => []
  | [a] => [code (a.toNat / 4), code (a.toNat % 4 * 16), pad, pad]
  | [a, b] =>
    [code (a.toNat / 4), code (a.toNat % 4 * 16 + b.toNat / 16), code (b.toNat % 16 * 4), pad]
  | a :: b :: c :: rest =>
    code (a.toNat / 4) :: code (a.toNat % 4 * 16 + b.toNat / 16) ::
      code (b.toNat % 16 * 4 + c.toNat / 64) :: code (c.toNat % 64) :: codes rest

private theorem utf8_cons_symbol {n : Nat} (h : n < 64) (text : List Char) :
    Utf8.encode (symbol n :: text) = code n :: Utf8.encode text := by
  change String.utf8EncodeChar (symbol n) ++ Utf8.encode text = _
  rw [utf8_symbol n h]
  rfl

private theorem utf8_cons_pad (text : List Char) :
    Utf8.encode ('=' :: text) = pad :: Utf8.encode text := rfl

private theorem utf8_encodeChars (octets : Bytes) :
    Utf8.encode (encodeChars octets) = codes octets := by
  induction octets using encodeChars.induct with
  | case1 => rfl
  | case2 a =>
      have := a.toNat_lt
      rw [encodeChars, utf8_cons_symbol (by omega), utf8_cons_symbol (by omega), utf8_cons_pad,
        utf8_cons_pad]
      rfl
  | case3 a b =>
      have := a.toNat_lt
      have := b.toNat_lt
      rw [encodeChars, utf8_cons_symbol (by omega), utf8_cons_symbol (by omega),
        utf8_cons_symbol (by omega), utf8_cons_pad]
      rfl
  | case4 a b c rest ih =>
      have := a.toNat_lt
      have := b.toNat_lt
      have := c.toNat_lt
      rw [encodeChars, utf8_cons_symbol (by omega), utf8_cons_symbol (by omega),
        utf8_cons_symbol (by omega), utf8_cons_symbol (by omega), ih]
      rfl

private theorem length_codes (octets : Bytes) : (codes octets).length % 4 = 0 := by
  induction octets using codes.induct with
  | case1 => rfl
  | case2 => simp [codes]
  | case3 => simp [codes]
  | case4 a b c rest ih =>
      simp only [codes, List.length_cons]
      omega

private theorem readTail_code (start place : Nat) (symbols : List (UInt8 × Nat)) {n : Nat}
    (h : n < 64) (rest : Bytes) :
    readTail start place ⟨symbols, 0⟩ (code n :: rest) =
      readTail start (place + 1) ⟨symbols ++ [(code n, n)], 0⟩ rest := by
  rw [readTail, if_neg (code_ne_pad n h), if_neg (Nat.lt_irrefl 0), valueAt_code _ h]

private theorem readTail_pad (start : Nat) {place : Nat} (tail : Tail) (h : 2 ≤ place)
    (rest : Bytes) :
    readTail start place tail (pad :: rest) =
      readTail start (place + 1) ⟨tail.symbols, tail.padding + 1⟩ rest := by
  rw [readTail, if_pos rfl, if_neg (by omega)]

/-- A last group with enough symbols and its padding complete is closed. -/
private theorem decodeTail_of_readTail {start : Nat} {octets : Bytes} {tail : Tail}
    (nonempty : octets ≠ []) (read : readTail start 0 ⟨[], 0⟩ octets = .ok tail)
    (enough : 2 ≤ tail.symbols.length) (whole : (tail.padding + tail.symbols.length) % 4 = 0) :
    decodeTail start octets = closeTail start tail.symbols := by
  have notEmpty : ¬ octets.isEmpty = true := by simpa using nonempty
  rw [decodeTail, if_neg notEmpty, read]
  change (if _ then _ else if _ then _ else _) = _
  rw [if_neg (Nat.not_lt.mpr enough), if_neg (fun broken => broken whole)]

private theorem ofNat_eq {n : Nat} {octet : UInt8} (h : n = octet.toNat) :
    UInt8.ofNat n = octet := by
  rw [h, UInt8.ofNat_toNat]

private theorem decodeTail_one (start : Nat) (a : UInt8) :
    decodeTail start (codes [a]) = .ok [a] := by
  have := a.toNat_lt
  have first : UInt8.ofNat (a.toNat / 4 * 4 + a.toNat % 4 * 16 / 16) = a :=
    ofNat_eq (by omega)
  have read : readTail start 0 ⟨[], 0⟩ (codes [a]) =
      .ok ⟨[(code (a.toNat / 4), a.toNat / 4), (code (a.toNat % 4 * 16), a.toNat % 4 * 16)],
        2⟩ := by
    rw [codes, readTail_code _ _ _ (by omega), readTail_code _ _ _ (by omega),
      readTail_pad _ _ (by omega), readTail_pad _ _ (by omega)]
    rfl
  rw [decodeTail_of_readTail (by simp [codes]) read (by simp) (by simp), closeTail,
    if_pos (by omega), first]

private theorem decodeTail_two (start : Nat) (a b : UInt8) :
    decodeTail start (codes [a, b]) = .ok [a, b] := by
  have := a.toNat_lt
  have := b.toNat_lt
  have first : UInt8.ofNat (a.toNat / 4 * 4 + (a.toNat % 4 * 16 + b.toNat / 16) / 16) = a :=
    ofNat_eq (by omega)
  have second : UInt8.ofNat ((a.toNat % 4 * 16 + b.toNat / 16) % 16 * 16 +
      b.toNat % 16 * 4 / 4) = b := ofNat_eq (by omega)
  have read : readTail start 0 ⟨[], 0⟩ (codes [a, b]) =
      .ok ⟨[(code (a.toNat / 4), a.toNat / 4),
        (code (a.toNat % 4 * 16 + b.toNat / 16), a.toNat % 4 * 16 + b.toNat / 16),
        (code (b.toNat % 16 * 4), b.toNat % 16 * 4)], 1⟩ := by
    rw [codes, readTail_code _ _ _ (by omega), readTail_code _ _ _ (by omega),
      readTail_code _ _ _ (by omega), readTail_pad _ _ (by omega)]
    rfl
  rw [decodeTail_of_readTail (by simp [codes]) read (by simp) (by simp), closeTail,
    if_pos (by omega), first, second]

/-- The three octets that four symbols make. -/
private theorem group_octets (a b c : UInt8) :
    UInt8.ofNat (a.toNat / 4 * 4 + (a.toNat % 4 * 16 + b.toNat / 16) / 16) = a ∧
      UInt8.ofNat ((a.toNat % 4 * 16 + b.toNat / 16) % 16 * 16 +
        (b.toNat % 16 * 4 + c.toNat / 64) / 4) = b ∧
      UInt8.ofNat ((b.toNat % 16 * 4 + c.toNat / 64) % 4 * 64 + c.toNat % 64) = c := by
  have := a.toNat_lt
  have := b.toNat_lt
  have := c.toNat_lt
  exact ⟨ofNat_eq (by omega), ofNat_eq (by omega), ofNat_eq (by omega)⟩

private theorem decodeTail_three (start : Nat) (a b c : UInt8) :
    decodeTail start (codes [a, b, c]) = .ok [a, b, c] := by
  have := a.toNat_lt
  have := b.toNat_lt
  have := c.toNat_lt
  obtain ⟨first, second, third⟩ := group_octets a b c
  have read : readTail start 0 ⟨[], 0⟩ (codes [a, b, c]) =
      .ok ⟨[(code (a.toNat / 4), a.toNat / 4),
        (code (a.toNat % 4 * 16 + b.toNat / 16), a.toNat % 4 * 16 + b.toNat / 16),
        (code (b.toNat % 16 * 4 + c.toNat / 64), b.toNat % 16 * 4 + c.toNat / 64),
        (code (c.toNat % 64), c.toNat % 64)], 0⟩ := by
    rw [codes, codes, readTail_code _ _ _ (by omega), readTail_code _ _ _ (by omega),
      readTail_code _ _ _ (by omega), readTail_code _ _ _ (by omega)]
    rfl
  rw [decodeTail_of_readTail (by simp [codes]) read (by simp) (by simp), closeTail, first, second,
    third]

private theorem codes_ne_nil {octets : Bytes} (h : octets ≠ []) :
    ∃ code rest, codes octets = code :: rest := by
  match octets, h with
  | [_], _ => exact ⟨_, _, rfl⟩
  | [_, _], _ => exact ⟨_, _, rfl⟩
  | _ :: _ :: _ :: _, _ => exact ⟨_, _, rfl⟩

/-- Groups are decoded one after the other; only the last one may be short. -/
private theorem decodeFrom_codes (start : Nat) (octets : Bytes) :
    decodeFrom start (codes octets) = .ok octets := by
  induction octets using codes.induct generalizing start with
  | case1 => rfl
  | case2 a => exact decodeTail_one start a
  | case3 a b => exact decodeTail_two start a b
  | case4 a b c rest ih =>
      by_cases last : rest = []
      · subst last
        exact decodeTail_three start a b c
      · obtain ⟨e, more, following⟩ := codes_ne_nil last
        have := a.toNat_lt
        have := b.toNat_lt
        have := c.toNat_lt
        obtain ⟨first, second, third⟩ := group_octets a b c
        rw [codes, following, decodeFrom, valueAt_code _ (by omega), valueAt_code _ (by omega),
          valueAt_code _ (by omega), valueAt_code _ (by omega), ← following, ih]
        change Except.ok (_ :: _ :: _ :: rest) = _
        rw [first, second, third]

private theorem strayEnd_codes (octets : Bytes) : strayEnd (codes octets) = none := by
  have whole := length_codes octets
  rw [strayEnd]
  split
  · rw [if_neg (by omega)]
  · rfl

/-- Decoding undoes encoding. -/
theorem decode_encodeChars (octets : Bytes) :
    decode (Utf8.encode (encodeChars octets)) = .ok octets := by
  rw [utf8_encodeChars, decode, strayEnd_codes]
  exact decodeFrom_codes 0 octets

@[simp] theorem decode_encode (octets : Bytes) :
    decode (Utf8.ofString (encode octets)) = .ok octets := by
  rw [Utf8.ofString, encode, String.toList_ofList, decode_encodeChars]

def isEncodingChar (c : Char) : Bool :=
  c.isAlphanum || c == '+' || c == '/' || c == '='

private theorem isEncodingChar_symbol : ∀ n < 64, isEncodingChar (symbol n) = true := by
  decide

theorem isEncodingChar_of_mem_encodeChars {octets : Bytes} {c : Char}
    (mem : c ∈ encodeChars octets) : isEncodingChar c = true := by
  induction octets using encodeChars.induct with
  | case1 => cases mem
  | case2 a =>
      have := a.toNat_lt
      simp only [encodeChars, List.mem_cons, List.not_mem_nil, or_false] at mem
      rcases mem with rfl | rfl | rfl | rfl
      · exact isEncodingChar_symbol _ (by omega)
      · exact isEncodingChar_symbol _ (by omega)
      · rfl
      · rfl
  | case3 a b =>
      have := a.toNat_lt
      have := b.toNat_lt
      simp only [encodeChars, List.mem_cons, List.not_mem_nil, or_false] at mem
      rcases mem with rfl | rfl | rfl | rfl
      · exact isEncodingChar_symbol _ (by omega)
      · exact isEncodingChar_symbol _ (by omega)
      · exact isEncodingChar_symbol _ (by omega)
      · rfl
  | case4 a b c rest ih =>
      have := a.toNat_lt
      have := b.toNat_lt
      have := c.toNat_lt
      simp only [encodeChars, List.mem_cons] at mem
      rcases mem with rfl | rfl | rfl | rfl | mem
      · exact isEncodingChar_symbol _ (by omega)
      · exact isEncodingChar_symbol _ (by omega)
      · exact isEncodingChar_symbol _ (by omega)
      · exact isEncodingChar_symbol _ (by omega)
      · exact ih mem

/-- Encoded text stays within the printable characters of seven bits. -/
theorem printable_of_isEncodingChar {c : Char} (h : isEncodingChar c = true) :
    0x20 < c.toNat ∧ c.toNat < 0x7F := by
  rw [isEncodingChar] at h
  delta Char.isAlphanum Char.isAlpha Char.isUpper Char.isLower Char.isDigit at h
  simp only [Bool.or_eq_true, Bool.and_eq_true, decide_eq_true_eq, beq_iff_eq,
    UInt32.le_iff_toNat_le, ge_iff_le] at h
  rcases h with (((letter | digit) | rfl) | rfl) | rfl
  · change (65 ≤ c.toNat ∧ c.toNat ≤ 90) ∨ (97 ≤ c.toNat ∧ c.toNat ≤ 122) at letter
    omega
  · change 48 ≤ c.toNat ∧ c.toNat ≤ 57 at digit
    omega
  · decide
  · decide
  · decide

theorem isBlank_of_isEncodingChar {c : Char} (h : isEncodingChar c = true) :
    isBlank c = false := by
  have := printable_of_isEncodingChar h
  simp only [isBlank, Bool.or_eq_false_iff, Bool.and_eq_false_iff, decide_eq_false_iff_not,
    beq_eq_false_iff_ne]
  omega

end FuzzHarness.Text.Base64
