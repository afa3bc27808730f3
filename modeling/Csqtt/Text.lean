import Mathlib.Data.List.DropRight

/-!
# Texts

A text is a list of characters. The functions are those of the standard library of Rust on `str`:
white space is the Unicode property `White_Space`, lengths count the bytes of UTF-8, and the parsers
of unsigned integers take one leading plus sign.
-/

abbrev Text := List Char

namespace Text

def ofUtf8 (bytes : List UInt8) : Option Text :=
  (String.fromUTF8? ⟨bytes.toArray⟩).map String.toList

def utf8 (t : Text) : List UInt8 := t.flatMap String.utf8EncodeChar

variable {t : Text}

theorem utf8_of_ofUtf8 {bytes : List UInt8} (h : ofUtf8 bytes = some t) : utf8 t = bytes := by
  obtain ⟨s, hs, rfl⟩ := Option.map_eq_some_iff.mp h
  have hb : s.toByteArray = ⟨bytes.toArray⟩ := by
    unfold String.fromUTF8? at hs
    split_ifs at hs
    rw [← Option.some.inj hs]
    rfl
  have he := s.utf8Encode_toList
  rw [hb, List.utf8Encode] at he
  have hd := congrArg (fun b : ByteArray => b.data.toList) he
  simpa [utf8] using hd

theorem ofUtf8_utf8 (t : Text) : ofUtf8 (utf8 t) = some t := by
  have hb : (⟨(utf8 t).toArray⟩ : ByteArray) = (String.ofList t).toByteArray := by
    rw [String.toByteArray_ofList, List.utf8Encode]
    apply ByteArray.ext
    simp [utf8]
  rw [ofUtf8, hb, String.fromUTF8?, dif_pos (String.ofList t).isValidUTF8]
  exact congrArg some String.toList_ofList

def utf8Len (t : Text) : ℕ := (utf8 t).length

def isWhitespace (c : Char) : Bool :=
  let n := c.toNat
  (0x09 ≤ n && n ≤ 0x0d) || n = 0x20 || n = 0x85 || n = 0xa0 || n = 0x1680 ||
    (0x2000 ≤ n && n ≤ 0x200a) || n = 0x2028 || n = 0x2029 || n = 0x202f || n = 0x205f || n = 0x3000

def trim (t : Text) : Text :=
  ((t.dropWhile isWhitespace).reverse.dropWhile isWhitespace).reverse

/-- No white space stands at either end. -/
def Trimmed (t : Text) : Prop :=
  (∀ h : 0 < t.length, ¬ isWhitespace t[0] = true) ∧
    ∀ h : t ≠ [], ¬ isWhitespace (t.getLast h) = true

instance (t : Text) : Decidable (Trimmed t) := inferInstanceAs (Decidable (_ ∧ _))

theorem trim_eq (t : Text) : trim t = (t.dropWhile isWhitespace).rdropWhile isWhitespace := rfl

theorem trim_sublist_dropWhile (t : Text) : (trim t).Sublist (t.dropWhile isWhitespace) := by
  have hl := List.reverse_sublist.mpr
    (List.dropWhile_sublist isWhitespace (l := (t.dropWhile isWhitespace).reverse))
  rwa [List.reverse_reverse] at hl

theorem trim_sublist (t : Text) : (trim t).Sublist t :=
  t.trim_sublist_dropWhile.trans (List.dropWhile_sublist isWhitespace)

theorem trim_eq_self_iff : trim t = t ↔ Trimmed t := by
  rw [Trimmed, ← List.dropWhile_eq_self_iff, ← List.rdropWhile_eq_self_iff]
  constructor
  · intro h
    have hd : t.dropWhile isWhitespace = t := by
      refine (List.dropWhile_sublist isWhitespace).eq_of_length_le ?_
      have hle := t.trim_sublist_dropWhile.length_le
      rwa [h] at hle
    rw [trim_eq, hd] at h
    exact ⟨hd, h⟩
  · rintro ⟨hd, hr⟩
    rw [trim_eq, hd, hr]

def stripStart (start t : Text) : Option Text :=
  if start.isPrefixOf t then some (t.drop start.length) else none

theorem stripStart_append (start t : Text) : stripStart start (start ++ t) = some t := by
  rw [stripStart, if_pos (List.isPrefixOf_iff_prefix.mpr (List.prefix_append start t)),
    List.drop_left]

/-- At most `n` parts; the last one holds the rest. -/
def splitn : ℕ → Char → Text → List Text
  | 0, _, _ => []
  | 1, _, t => [t]
  | n + 2, c, t =>
    match t.dropWhile (· ≠ c) with
    | [] => [t]
    | _ :: rest => t.takeWhile (· ≠ c) :: splitn (n + 1) c rest

variable {c : Char}

theorem splitn_of_not_mem (h : c ∉ t) (n : ℕ) : splitn (n + 1) c t = [t] := by
  cases n with
  | zero => rfl
  | succ =>
    have ha : t.dropWhile (· ≠ c) = [] :=
      List.dropWhile_eq_nil_iff.mpr fun x hx => decide_eq_true fun heq => h (heq ▸ hx)
    rw [splitn, ha]

theorem takeWhile_separator (h : c ∉ t) (rest : Text) : (t ++ c :: rest).takeWhile (· ≠ c) = t := by
  have hp : ∀ x ∈ t, decide (x ≠ c) = true := fun x hx => decide_eq_true fun heq => h (heq ▸ hx)
  rw [List.takeWhile_append_of_pos hp, List.takeWhile_cons_of_neg (by simp), List.append_nil]

theorem splitn_append (h : c ∉ t) (rest : Text) (n : ℕ) :
    splitn (n + 2) c (t ++ c :: rest) = t :: splitn (n + 1) c rest := by
  have hp : ∀ x ∈ t, decide (x ≠ c) = true := fun x hx => decide_eq_true fun heq => h (heq ▸ hx)
  have hd : (t ++ c :: rest).dropWhile (· ≠ c) = c :: rest := by
    rw [List.dropWhile_append_of_pos hp, List.dropWhile_cons_of_neg (by simp)]
  rw [splitn, hd, takeWhile_separator h]

theorem splitn_getElem?_succ (c : Char) {n i : ℕ} (h : i < n) (t : Text) :
    (splitn (n + 2) c t)[i]? = (splitn (n + 1) c t)[i]? := by
  induction n generalizing i t with
  | zero => exact absurd h (Nat.not_lt_zero i)
  | succ _ ih =>
    rw [splitn, splitn]
    split
    · rfl
    · rename_i rest _
      cases i with
      | zero => rfl
      | succ => exact ih (Nat.lt_of_succ_lt_succ h) rest

theorem splitn_head (c : Char) (t rest : Text) (n : ℕ) :
    (splitn (n + 2) c (t ++ c :: rest)).head? = some (t.takeWhile (· ≠ c)) := by
  by_cases h : c ∈ t
  · obtain ⟨u, v, rfl, hu⟩ := List.eq_append_cons_of_mem h
    rw [List.append_assoc, List.cons_append, splitn_append hu, takeWhile_separator hu,
      List.head?_cons]
  · have ha : t.takeWhile (· ≠ c) = t :=
      List.takeWhile_eq_self_iff.mpr fun x hx => decide_eq_true fun heq => h (heq ▸ hx)
    rw [splitn_append h, ha, List.head?_cons]

/-- The part before the separator, trimmed, is the whole text only if there is nothing to leave out.
-/
theorem trim_takeWhile_eq_iff : trim (t.takeWhile (· ≠ c)) = t ↔ c ∉ t ∧ t.Trimmed := by
  constructor
  · intro h
    have hc : c ∉ t := by
      intro hc
      rw [← h] at hc
      have hp := List.mem_takeWhile_imp ((trim_sublist _).subset hc)
      simp at hp
    have ha : t.takeWhile (· ≠ c) = t :=
      List.takeWhile_eq_self_iff.mpr fun x hx => decide_eq_true fun heq => hc (heq ▸ hx)
    rw [ha] at h
    exact ⟨hc, trim_eq_self_iff.mp h⟩
  · rintro ⟨hc, ht⟩
    have ha : t.takeWhile (· ≠ c) = t :=
      List.takeWhile_eq_self_iff.mpr fun x hx => decide_eq_true fun heq => hc (heq ▸ hx)
    rw [ha, trim_eq_self_iff.mpr ht]

/-- All the parts. -/
def split (c : Char) (t : Text) : List Text := splitn (t.length + 1) c t

def decimal (t : Text) : Option ℕ :=
  if t.isEmpty || !t.all Char.isDigit then none
  else some (t.foldl (fun n c => n * 10 + (c.toNat - 48)) 0)

/-- The parser of an unsigned integer type with values below `bound`. -/
def parseUnsigned (bound : ℕ) (t : Text) : Option ℕ :=
  (decimal (if t.head? = some '+' then t.tail else t)).filter (· < bound)

def ofNat (n : ℕ) : Text := Nat.toDigits 10 n

theorem isDigit_of_mem_ofNat {n : ℕ} (h : c ∈ ofNat n) : c.isDigit = true :=
  Nat.isDigit_of_mem_toDigits (by omega) (by omega) h

variable (n : ℕ)

theorem decimal_ofNat : decimal (ofNat n) = some n := by
  have hs : ((ofNat n).isEmpty || !(ofNat n).all Char.isDigit) = false := by
    rw [List.all_eq_true.mpr fun c hc => isDigit_of_mem_ofNat hc, ofNat,
      List.isEmpty_eq_false_iff.mpr Nat.toDigits_ne_nil]
    rfl
  have hv := @Nat.ofDigitChars_ten_toDigits n
  rw [Nat.ofDigitChars_eq_foldl] at hv
  simp only [decimal, hs, Bool.false_eq_true, if_false, Option.some.injEq]
  simp only [Nat.mul_comm 10] at hv
  exact hv

theorem trimmed_ofNat : Trimmed (ofNat n) := by
  have hd : ∀ c ∈ ofNat n, ¬ isWhitespace c = true := by
    intro c hc
    have hd := isDigit_of_mem_ofNat hc
    simp only [Char.isDigit, Bool.and_eq_true, decide_eq_true_eq, ge_iff_le,
      UInt32.le_iff_toNat_le] at hd
    have hr : 48 ≤ c.toNat ∧ c.toNat ≤ 57 := hd
    simp only [isWhitespace, Bool.or_eq_true, Bool.and_eq_true, decide_eq_true_eq]
    omega
  exact ⟨fun h => hd _ (List.getElem_mem h), fun h => hd _ (List.getLast_mem h)⟩

theorem trim_ofNat : trim (ofNat n) = ofNat n :=
  trim_eq_self_iff.mpr (trimmed_ofNat n)

theorem not_mem_ofNat (h : c.isDigit = false) (n : ℕ) : c ∉ ofNat n := fun hc =>
  absurd (isDigit_of_mem_ofNat hc) (by rw [h]; exact Bool.false_ne_true)

theorem parseUnsigned_ofNat (bound n : ℕ) :
    parseUnsigned bound (ofNat n) = if n < bound then some n else none := by
  have hp : (ofNat n).head? ≠ some '+' := fun h =>
    absurd (isDigit_of_mem_ofNat (List.mem_of_head? h)) (by decide)
  rw [parseUnsigned, if_neg hp, decimal_ofNat]
  simp [Option.filter]

def octet (t : Text) : Option UInt8 :=
  if 3 < t.length ∨ (1 < t.length ∧ t.head? = some '0') then none
  else ((decimal t).filter (· < 256)).map UInt8.ofNat

/-- An IPv4 address in dotted decimal form, without leading zeros. -/
def parseIpv4 (t : Text) : Option (UInt8 × UInt8 × UInt8 × UInt8) :=
  match (splitn 5 '.' t).map octet with
  | [some a, some b, some c, some d] => some (a, b, c, d)
  | _ => none

def ofIpv4 (a b c d : UInt8) : Text :=
  ofNat a.toNat ++ '.' :: ofNat b.toNat ++ '.' :: ofNat c.toNat ++ '.' :: ofNat d.toNat

theorem octet_ofNat (a : UInt8) : octet (ofNat a.toNat) = some a := by
  have hs : ∀ n < 256, octet (ofNat n) = some (UInt8.ofNat n) := by decide +kernel
  rw [hs a.toNat a.toNat_lt, UInt8.ofNat_toNat]

theorem parseIpv4_ofIpv4 (a b c d : UInt8) : parseIpv4 (ofIpv4 a b c d) = some (a, b, c, d) := by
  have hd : ∀ n, '.' ∉ ofNat n := not_mem_ofNat (by decide)
  have hp : splitn 5 '.' (ofIpv4 a b c d) =
      [ofNat a.toNat, ofNat b.toNat, ofNat c.toNat, ofNat d.toNat] := by
    simp only [ofIpv4, List.append_assoc, List.cons_append]
    rw [splitn_append (hd _), splitn_append (hd _), splitn_append (hd _), splitn_of_not_mem (hd _)]
  rw [parseIpv4, hp]
  simp only [List.map_cons, List.map_nil, octet_ofNat]

end Text
