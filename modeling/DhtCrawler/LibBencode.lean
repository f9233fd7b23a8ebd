import Mathlib.Data.Nat.Digits.Lemmas

/-! Bencode: integers, byte strings, lists and dictionaries. -/

inductive Bencode where
  | int (n : ℤ)
  | bytes (content : List UInt8)
  | list (items : List Bencode)
  | dict (entries : List (List UInt8 × Bencode))

namespace Bencode

open List Option

variable {n : ℕ} {c : UInt8}

def ascii (text : String) : List UInt8 := text.toList.map Char.toUInt8

/-! ### Numerals -/

def digit (d : ℕ) : UInt8 := Char.toUInt8 '0' + UInt8.ofNat d

def isDigit (c : UInt8) : Bool := Char.toUInt8 '0' ≤ c ∧ c ≤ Char.toUInt8 '9'

def digitValue (c : UInt8) : ℕ := c.toNat - (Char.toUInt8 '0').toNat

lemma isDigit_digit : ∀ d < 10, isDigit (digit d) = true := by decide

lemma digitValue_digit : ∀ d < 10, digitValue (digit d) = d := by decide

def decimal (n : ℕ) : List UInt8 := if n = 0 then [digit 0] else ((Nat.digits 10 n).map digit).reverse

def numeral (digits : List UInt8) : ℕ := Nat.ofDigits 10 (digits.reverse.map digitValue)

lemma numeral_decimal (n : ℕ) : numeral (decimal n) = n := by
  unfold numeral decimal
  split_ifs with hzero
  · rw [hzero]
    decide
  · have hdigits : (Nat.digits 10 n).map (digitValue ∘ digit) = (Nat.digits 10 n).map id :=
      map_congr_left fun d hd => digitValue_digit d (Nat.digits_lt_base (by decide) hd)
    rw [reverse_reverse, List.map_map, hdigits, List.map_id, Nat.ofDigits_digits]

lemma isDigit_decimal (hc : c ∈ decimal n) : isDigit c = true := by
  unfold decimal at hc
  split_ifs at hc
  · rw [mem_singleton.mp hc]
    exact isDigit_digit 0 (by decide)
  · obtain ⟨d, hd, rfl⟩ := List.mem_map.mp (mem_reverse.mp hc)
    exact isDigit_digit d (Nat.digits_lt_base (by decide) hd)

lemma decimal_of_lt (h : n < 10) : decimal n = [digit n] := by
  unfold decimal
  split_ifs with hzero
  · rw [hzero]
  · rw [Nat.digits_of_lt 10 n hzero h]
    rfl

lemma decimal_div (h : n / 10 ≠ 0) : decimal n = decimal (n / 10) ++ [digit (n % 10)] := by
  have hn : n ≠ 0 := by
    rintro rfl
    exact h rfl
  unfold decimal
  rw [if_neg hn, if_neg h, Nat.digits_def' (by decide) (Nat.pos_of_ne_zero hn), map_cons, reverse_cons]

def readNat (bytes : List UInt8) : Option (ℕ × List UInt8) :=
  let digits := bytes.takeWhile isDigit
  if digits = decimal (numeral digits) then some (numeral digits, bytes.dropWhile isDigit) else none

lemma readNat_decimal (n : ℕ) (hc : isDigit c = false) (rest : List UInt8) :
    readNat (decimal n ++ c :: rest) = some (n, c :: rest) := by
  have htake : (decimal n ++ c :: rest).takeWhile isDigit = decimal n := by
    rw [takeWhile_append_of_pos fun x hx => isDigit_decimal hx, takeWhile_cons_of_neg
      (Bool.eq_false_iff.mp hc), append_nil]
  have hdrop : (decimal n ++ c :: rest).dropWhile isDigit = c :: rest := by
    rw [dropWhile_append_of_pos fun x hx => isDigit_decimal hx, dropWhile_cons_of_neg (Bool.eq_false_iff.mp hc)]
  unfold readNat
  dsimp only
  rw [htake, hdrop, numeral_decimal, if_pos rfl]

/-! ### Values -/

def encodeBytes (content : List UInt8) : List UInt8 :=
  decimal content.length ++ Char.toUInt8 ':' :: content

def encodeInt (n : ℤ) : List UInt8 :=
  Char.toUInt8 'i' ::
    ((if n < 0 then [Char.toUInt8 '-'] else []) ++ decimal n.natAbs ++ [Char.toUInt8 'e'])

mutual

def encode : Bencode → List UInt8
  | .int n => encodeInt n
  | .bytes content => encodeBytes content
  | .list items => Char.toUInt8 'l' :: encodeItems items
  | .dict entries => Char.toUInt8 'd' :: encodeEntries entries

def encodeItems : List Bencode → List UInt8
  | [] => [Char.toUInt8 'e']
  | item :: items => encode item ++ encodeItems items

def encodeEntries : List (List UInt8 × Bencode) → List UInt8
  | [] => [Char.toUInt8 'e']
  | (key, value) :: entries => encodeBytes key ++ (encode value ++ encodeEntries entries)

end

lemma encodeEntries_append (front back : List (List UInt8 × Bencode)) :
    encodeEntries (front ++ back) =
      front.flatMap (fun entry => encodeBytes entry.1 ++ entry.2.encode) ++ encodeEntries back := by
  induction front with
  | nil => rfl
  | cons entry front ih =>
    rw [cons_append, encodeEntries, ih, flatMap_cons, append_assoc, append_assoc]

mutual

def Ascending : Bencode → Prop
  | .int _ => True
  | .bytes _ => True
  | .list items => AscendingItems items
  | .dict entries => (entries.map Prod.fst).Pairwise (· < ·) ∧ AscendingEntries entries

def AscendingItems : List Bencode → Prop
  | [] => True
  | item :: items => Ascending item ∧ AscendingItems items

def AscendingEntries : List (List UInt8 × Bencode) → Prop
  | [] => True
  | (_, value) :: entries => Ascending value ∧ AscendingEntries entries

end

/-! ### Reading -/

def readBytes (bytes : List UInt8) : Option (List UInt8 × List UInt8) := do
  let (n, rest) ← readNat bytes
  match rest with
  | c :: rest =>
    if c = Char.toUInt8 ':' ∧ n ≤ rest.length then some (rest.take n, rest.drop n) else none
  | [] => none

def readIntEnd (bytes : List UInt8) : Option (ℕ × List UInt8) := do
  let (n, rest) ← readNat bytes
  match rest with
  | c :: rest => if c = Char.toUInt8 'e' then some (n, rest) else none
  | [] => none

def readInt (bytes : List UInt8) : Option (ℤ × List UInt8) :=
  match bytes with
  | [] => none
  | c :: digits =>
    if c = Char.toUInt8 '-' then do
      let (n, rest) ← readIntEnd digits
      if n = 0 then none else some (-n, rest)
    else do
      let (n, rest) ← readIntEnd (c :: digits)
      some (n, rest)

mutual

def decode : ℕ → List UInt8 → Option (Bencode × List UInt8)
  | 0, _ => none
  | _ + 1, [] => none
  | fuel + 1, c :: rest =>
    if c = Char.toUInt8 'i' then do
      let (n, rest) ← readInt rest
      some (.int n, rest)
    else if c = Char.toUInt8 'l' then do
      let (items, rest) ← decodeItems fuel rest
      some (.list items, rest)
    else if c = Char.toUInt8 'd' then do
      let (entries, rest) ← decodeEntries fuel rest
      if (entries.map Prod.fst).Pairwise (· < ·) then some (.dict entries, rest) else none
    else do
      let (content, rest) ← readBytes (c :: rest)
      some (.bytes content, rest)

def decodeItems : ℕ → List UInt8 → Option (List Bencode × List UInt8)
  | 0, _ => none
  | _ + 1, [] => none
  | fuel + 1, c :: rest =>
    if c = Char.toUInt8 'e' then some ([], rest)
    else do
      let (item, rest) ← decode fuel (c :: rest)
      let (items, rest) ← decodeItems fuel rest
      some (item :: items, rest)

def decodeEntries : ℕ → List UInt8 → Option (List (List UInt8 × Bencode) × List UInt8)
  | 0, _ => none
  | _ + 1, [] => none
  | fuel + 1, c :: rest =>
    if c = Char.toUInt8 'e' then some ([], rest)
    else do
      let (key, rest) ← readBytes (c :: rest)
      let (value, rest) ← decode fuel rest
      let (entries, rest) ← decodeEntries fuel rest
      some ((key, value) :: entries, rest)

end

def parse (bytes : List UInt8) : Option Bencode :=
  match decode bytes.length bytes with
  | some (value, []) => some value
  | _ => none

/-! ### What was written is read -/

lemma readBytes_encode (content rest : List UInt8) :
    readBytes (encodeBytes content ++ rest) = some (content, rest) := by
  unfold readBytes encodeBytes
  rw [append_assoc, cons_append, readNat_decimal _ (by decide), bind_eq_bind, bind_some]
  dsimp only
  rw [if_pos ⟨rfl, by rw [length_append]; exact Nat.le_add_right _ _⟩, take_left, drop_left]

lemma readIntEnd_decimal (n : ℕ) (rest : List UInt8) :
    readIntEnd (decimal n ++ Char.toUInt8 'e' :: rest) = some (n, rest) := by
  unfold readIntEnd
  rw [readNat_decimal _ (by decide), bind_eq_bind, bind_some]
  exact if_pos rfl

lemma exists_decimal (n : ℕ) : ∃ c digits, decimal n = c :: digits := by
  unfold decimal
  split_ifs with hzero
  · exact ⟨_, _, rfl⟩
  · refine exists_cons_of_ne_nil ?_
    rw [ne_eq, reverse_eq_nil_iff, map_eq_nil_iff]
    exact Nat.digits_ne_nil_iff_ne_zero.mpr hzero

lemma readInt_encode (n : ℤ) (rest : List UInt8) :
    readInt ((if n < 0 then [Char.toUInt8 '-'] else []) ++ decimal n.natAbs ++ Char.toUInt8 'e' :: rest) =
      some (n, rest) := by
  split_ifs with hneg
  · rw [append_assoc, singleton_append]
    unfold readInt
    dsimp only
    rw [if_pos rfl, readIntEnd_decimal, bind_eq_bind, bind_some]
    rw [if_neg (by omega)]
    congr 2
    omega
  · obtain ⟨c, digits, hc⟩ := exists_decimal n.natAbs
    have hdigit : isDigit c = true := isDigit_decimal (n := n.natAbs) (hc ▸ mem_cons_self)
    have hminus : c ≠ Char.toUInt8 '-' := by
      rintro rfl
      exact absurd hdigit (by decide)
    have hread := readIntEnd_decimal n.natAbs rest
    rw [nil_append, hc] at *
    unfold readInt
    dsimp only [cons_append]
    rw [if_neg hminus]
    rw [cons_append] at hread
    rw [hread, bind_eq_bind, bind_some]
    congr 2
    omega

lemma digit_ne_mark (hc : isDigit c = true) :
    c ≠ Char.toUInt8 'i' ∧ c ≠ Char.toUInt8 'l' ∧ c ≠ Char.toUInt8 'd' ∧ c ≠ Char.toUInt8 'e' := by
  refine ⟨?_, ?_, ?_, ?_⟩ <;> rintro rfl <;> exact absurd hc (by decide)

lemma exists_encodeBytes (content : List UInt8) :
    ∃ c rest, encodeBytes content = c :: rest ∧ isDigit c = true := by
  obtain ⟨c, digits, hc⟩ := exists_decimal content.length
  refine ⟨c, digits ++ Char.toUInt8 ':' :: content, ?_, ?_⟩
  · unfold encodeBytes
    rw [hc, cons_append]
  · exact isDigit_decimal (n := content.length) (hc ▸ mem_cons_self)

lemma exists_encode (value : Bencode) : ∃ c rest, value.encode = c :: rest ∧ c ≠ Char.toUInt8 'e' := by
  cases value with
  | int n => exact ⟨_, _, by rw [encode]; rfl, by decide⟩
  | bytes content =>
    obtain ⟨c, rest, heq, hc⟩ := exists_encodeBytes content
    exact ⟨c, rest, by rw [encode, heq], (digit_ne_mark hc).2.2.2⟩
  | list items => exact ⟨_, _, by rw [encode], by decide⟩
  | dict entries => exact ⟨_, _, by rw [encode], by decide⟩

lemma encode_pos (value : Bencode) : 1 ≤ value.encode.length := by
  obtain ⟨c, rest, heq, _⟩ := exists_encode value
  rw [heq]
  exact Nat.le_add_left _ _

lemma encodeItems_pos (items : List Bencode) : 1 ≤ (encodeItems items).length := by
  cases items with
  | nil => rw [encodeItems, length_singleton]
  | cons item items =>
    rw [encodeItems, length_append]
    exact (encode_pos item).trans (Nat.le_add_right _ _)

lemma encodeEntries_pos (entries : List (List UInt8 × Bencode)) : 1 ≤ (encodeEntries entries).length := by
  cases entries with
  | nil => rw [encodeEntries, length_singleton]
  | cons entry entries =>
    rw [encodeEntries, length_append, length_append]
    have hvalue := encode_pos entry.2
    omega

lemma decode_encodeBytes (fuel : ℕ) (content rest : List UInt8) :
    decode (fuel + 1) (encodeBytes content ++ rest) = some (.bytes content, rest) := by
  have hread := readBytes_encode content rest
  obtain ⟨c, tail, heq, hc⟩ := exists_encodeBytes content
  obtain ⟨hint, hlist, hdict, _⟩ := digit_ne_mark hc
  rw [heq, cons_append] at hread ⊢
  rw [decode, if_neg hint, if_neg hlist, if_neg hdict, hread]
  rfl

mutual

lemma decode_encode : ∀ (value : Bencode) (fuel : ℕ) (rest : List UInt8), value.Ascending →
    value.encode.length ≤ fuel → decode fuel (value.encode ++ rest) = some (value, rest)
  | value, 0, rest, _, hfuel => absurd (encode_pos value) (by omega)
  | .int n, fuel + 1, rest, _, _ => by
      have hread := readInt_encode n rest
      rw [encode, encodeInt, cons_append, decode, if_pos rfl, append_assoc _ _ rest, singleton_append, hread]
      rfl
  | .bytes content, fuel + 1, rest, _, _ => by
      rw [encode]
      exact decode_encodeBytes fuel content rest
  | .list items, fuel + 1, rest, hasc, hfuel => by
      rw [encode, length_cons] at hfuel
      rw [Ascending] at hasc
      have hitems := decodeItems_encode items fuel rest hasc (by omega)
      rw [encode, cons_append, decode, if_neg (by decide), if_pos rfl, hitems]
      rfl
  | .dict entries, fuel + 1, rest, hasc, hfuel => by
      rw [encode, length_cons] at hfuel
      rw [Ascending] at hasc
      have hentries := decodeEntries_encode entries fuel rest hasc.2 (by omega)
      rw [encode, cons_append, decode, if_neg (by decide), if_neg (by decide), if_pos rfl, hentries,
        bind_eq_bind, bind_some]
      exact if_pos hasc.1

lemma decodeItems_encode : ∀ (items : List Bencode) (fuel : ℕ) (rest : List UInt8), AscendingItems items →
    (encodeItems items).length ≤ fuel → decodeItems fuel (encodeItems items ++ rest) = some (items, rest)
  | items, 0, rest, _, hfuel => absurd (encodeItems_pos items) (by omega)
  | [], fuel + 1, rest, _, _ => by
      rw [encodeItems, singleton_append, decodeItems, if_pos rfl]
  | item :: items, fuel + 1, rest, hasc, hfuel => by
      rw [encodeItems, length_append] at hfuel
      rw [AscendingItems] at hasc
      have hpos := encode_pos item
      have hend := encodeItems_pos items
      have hitem := decode_encode item fuel (encodeItems items ++ rest) hasc.1 (by omega)
      have hitems := decodeItems_encode items fuel rest hasc.2 (by omega)
      obtain ⟨c, tail, heq, hc⟩ := exists_encode item
      rw [heq, cons_append] at hitem
      rw [encodeItems, append_assoc, heq, cons_append, decodeItems, if_neg hc, hitem, bind_eq_bind, bind_some]
      dsimp only
      rw [hitems]
      rfl

lemma decodeEntries_encode : ∀ (entries : List (List UInt8 × Bencode)) (fuel : ℕ) (rest : List UInt8),
    AscendingEntries entries → (encodeEntries entries).length ≤ fuel →
      decodeEntries fuel (encodeEntries entries ++ rest) = some (entries, rest)
  | entries, 0, rest, _, hfuel => absurd (encodeEntries_pos entries) (by omega)
  | [], fuel + 1, rest, _, _ => by
      rw [encodeEntries, singleton_append, decodeEntries, if_pos rfl]
  | (key, value) :: entries, fuel + 1, rest, hasc, hfuel => by
      rw [encodeEntries, length_append, length_append] at hfuel
      rw [AscendingEntries] at hasc
      have hpos := encode_pos value
      have hend := encodeEntries_pos entries
      have hvalue := decode_encode value fuel (encodeEntries entries ++ rest) hasc.1 (by omega)
      have hentries := decodeEntries_encode entries fuel rest hasc.2 (by omega)
      have hkey := readBytes_encode key (encode value ++ (encodeEntries entries ++ rest))
      obtain ⟨c, tail, heq, hc⟩ := exists_encodeBytes key
      rw [encodeEntries, append_assoc, append_assoc]
      rw [heq, cons_append] at hkey ⊢
      rw [decodeEntries, if_neg (digit_ne_mark hc).2.2.2, hkey, bind_eq_bind, bind_some]
      dsimp only
      rw [hvalue, bind_eq_bind, bind_some]
      rw [hentries]
      rfl

end

lemma parse_encode {value : Bencode} (h : value.Ascending) : parse value.encode = some value := by
  unfold parse
  have hdecode := decode_encode value value.encode.length [] h (le_refl _)
  rw [append_nil] at hdecode
  rw [hdecode]

example : (parse (ascii "d1:a0:1:bi-7ee")).isSome = true ∧ (parse (ascii "d1:b0:1:a0:e")).isSome = false ∧
    (parse (ascii "03:abc")).isSome = false ∧ (parse (ascii "3:abcd")).isSome = false := by decide +kernel

end Bencode
