import DhtCrawler.BaseTypes
import DhtCrawler.LibBencode
import DhtCrawler.LibOutcome
import Mathlib.Algebra.BigOperators.Ring.Finset

/-! `parse_metadata` of `metadata.rs`. A signed `length` is cast to an unsigned one, the casts are added up in 64
bits, and the only check is that the total is positive. -/

namespace DhtCrawler

variable {name : String}

/-- The decoded values of `rbit`. -/
inductive Value where
  | integer (n : Int64)
  | bytes (content : List UInt8)
  | list (items : List Value)
  | dict (entries : List (List UInt8 × Value))

namespace Value

def asInteger : Value → Option Int64
  | integer n => some n
  | _ => none

def asStr : Value → Option String
  | bytes content => String.fromUTF8? ⟨content.toArray⟩
  | _ => none

def asList : Value → Option (List Value)
  | list items => some items
  | _ => none

def asDict : Value → Option (List (List UInt8 × Value))
  | dict entries => some entries
  | _ => none

end Value

structure FileInfo where
  path : String
  size : UInt64
  deriving DecidableEq, Repr

variable {acc acc' : UInt64 × List FileInfo} {files : List FileInfo}

abbrev FetchedMetadata := String × UInt64 × List FileInfo × UInt64

def field (dict : List (List UInt8 × Value)) (key : String) : Option Value := dict.lookup (Bencode.ascii key)

/-- The `length` of an entry of `files`, if the entry is a dictionary with one. -/
def entryLength (file : Value) : Option Int64 :=
  file.asDict.bind fun dict => (field dict "length").bind Value.asInteger

def entryPath (file : Value) : String :=
  ((file.asDict.bind fun dict => (field dict "path").bind Value.asList).map fun parts =>
    "/".intercalate (parts.filterMap Value.asStr)).getD ""

/-- An addition of `u64`s: with overflow checks it aborts where it would wrap around. -/
def addSize (overflowChecks : Bool) (a b : UInt64) : Except Panic UInt64 :=
  if overflowChecks && decide (a.toNat + b.toNat ≥ 2 ^ 64) then .error .arithmetic else .ok (a + b)

/-- One round of the loop over `files`: entries without a length are passed over. -/
def addFile (overflowChecks : Bool) (acc : UInt64 × List FileInfo) (file : Value) :
    Except Panic (UInt64 × List FileInfo) :=
  match entryLength file with
  | none => .ok acc
  | some length => do
      let total ← addSize overflowChecks acc.1 length.toUInt64
      .ok (total, acc.2 ++ [⟨entryPath file, length.toUInt64⟩])

def parseFiles (overflowChecks : Bool) (dict : List (List UInt8 × Value)) (name : String) :
    Except Panic (UInt64 × List FileInfo) :=
  match (field dict "files").bind Value.asList with
  | some files => files.foldlM (addFile overflowChecks) (0, [])
  | none =>
    match (field dict "length").bind Value.asInteger with
    | some length => .ok (length.toUInt64, [⟨name, length.toUInt64⟩])
    | none => .ok (0, [])

def parseMetadata (overflowChecks : Bool) (decode : List UInt8 → Option Value) (infoBytes : List UInt8) :
    Except Panic (Option FetchedMetadata) :=
  match (decode infoBytes).bind Value.asDict with
  | none => .ok none
  | some dict => do
      let name := ((field dict "name").bind Value.asStr).getD "Unknown"
      let pieceLength := (((field dict "piece length").bind Value.asInteger).getD 0).toUInt64
      let (total, files) ← parseFiles overflowChecks dict name
      .ok (if total > 0 then some (name, total, files, pieceLength) else none)

/-- The `length` integers of the entries that `parse_metadata` returns a file for. -/
def entryLengths (dict : List (List UInt8 × Value)) : List Int64 :=
  match (field dict "files").bind Value.asList with
  | some files => files.filterMap entryLength
  | none => ((field dict "length").bind Value.asInteger).toList

/-! ### Sizes modulo `2 ^ 64` -/

lemma toNat_toUInt64 (n : Int64) : (n.toUInt64.toNat : ℤ) = n.toInt % 2 ^ 64 := by
  have hcond := BitVec.toInt_eq_toNat_cond n.toBitVec
  have hlt := n.toBitVec.isLt
  have hint : n.toInt = n.toBitVec.toInt := rfl
  rw [hint, ← Int64.toNat_toBitVec]
  split_ifs at hcond <;> omega

lemma toInt_lt (n : Int64) : n.toInt < 2 ^ 63 := n.toBitVec.toInt_lt

lemma toUInt64_exact_iff (n : Int64) : (n.toUInt64.toNat : ℤ) = n.toInt ↔ 0 ≤ n.toInt := by
  have hcast := toNat_toUInt64 n
  have hlt := toInt_lt n
  omega

/-- The sizes are the casts of the lengths, and the total is their sum, modulo `2 ^ 64`. -/
structure Sums (lengths : List Int64) (total : UInt64) (files : List FileInfo) : Prop where
  sizes : files.map FileInfo.size = lengths.map Int64.toUInt64
  total : total.toNat = (files.map fun file => file.size.toNat).sum % 2 ^ 64

variable {overflowChecks : Bool} {lengths : List Int64}

lemma addSize_ok {a b c : UInt64} (h : addSize overflowChecks a b = .ok c) : c = a + b := by
  rw [addSize] at h
  split_ifs at h
  exact (Except.ok.inj h).symm

lemma Sums.addFile (hsums : Sums lengths acc.1 acc.2) {file : Value}
    (hrun : addFile overflowChecks acc file = .ok acc') :
    Sums (lengths ++ (entryLength file).toList) acc'.1 acc'.2 := by
  rw [DhtCrawler.addFile] at hrun
  cases hlength : entryLength file with
  | none =>
    rw [hlength] at hrun
    cases hrun
    simpa using hsums
  | some length =>
    rw [hlength] at hrun
    obtain ⟨total, hadd, heq⟩ := Except.bind_eq_ok.mp hrun
    cases heq
    refine ⟨by simp [hsums.sizes], ?_⟩
    simp [addSize_ok hadd, UInt64.toNat_add, hsums.total, Nat.add_mod]

lemma Sums.foldlM (files : List Value) (hsums : Sums lengths acc.1 acc.2)
    (hrun : files.foldlM (DhtCrawler.addFile overflowChecks) acc = .ok acc') :
    Sums (lengths ++ files.filterMap entryLength) acc'.1 acc'.2 := by
  induction files generalizing lengths acc with
  | nil =>
    cases hrun
    simpa using hsums
  | cons file files ih =>
    rw [List.foldlM_cons] at hrun
    obtain ⟨mid, hfile, hrest⟩ := Except.bind_eq_ok.mp hrun
    have htail := ih (hsums.addFile hfile) hrest
    cases hlength : entryLength file <;> simpa [hlength] using htail

lemma parseFiles_sums {dict : List (List UInt8 × Value)} {result : UInt64 × List FileInfo}
    (hrun : parseFiles overflowChecks dict name = .ok result) : Sums (entryLengths dict) result.1 result.2 := by
  rw [parseFiles] at hrun
  rw [entryLengths]
  cases hfiles : (field dict "files").bind Value.asList with
  | some entries =>
    rw [hfiles] at hrun
    have hnone : Sums [] 0 [] := ⟨rfl, rfl⟩
    exact hnone.foldlM entries hrun
  | none =>
    rw [hfiles] at hrun
    cases hlength : (field dict "length").bind Value.asInteger with
    | none =>
      rw [hlength] at hrun
      cases hrun
      exact ⟨rfl, rfl⟩
    | some length =>
      rw [hlength] at hrun
      cases hrun
      exact ⟨rfl, by simp [Nat.mod_eq_of_lt length.toUInt64.toNat_lt]⟩

lemma parseMetadata_sums {decode : List UInt8 → Option Value} {infoBytes : List UInt8}
    {total pieceLength : UInt64}
    (hrun : parseMetadata overflowChecks decode infoBytes = .ok (some (name, total, files, pieceLength))) :
    ∃ dict, decode infoBytes = some (.dict dict) ∧ Sums (entryLengths dict) total files := by
  rw [parseMetadata] at hrun
  cases hdecoded : decode infoBytes with
  | none => simp [hdecoded] at hrun
  | some value =>
    cases value with
    | dict dict =>
      rw [hdecoded] at hrun
      obtain ⟨result, hsizes, hresult⟩ := Except.bind_eq_ok.mp hrun
      have hsums := parseFiles_sums hsizes
      simp only [Except.ok.injEq, Option.ite_none_right_eq_some, Option.some.injEq, Prod.mk.injEq] at hresult
      obtain ⟨-, -, htotal, hfiles, -⟩ := hresult
      exact ⟨dict, rfl, htotal ▸ hfiles ▸ hsums⟩
    | _ => simp [hdecoded, Value.asDict] at hrun

lemma sizes_exact_iff (hsizes : files.map FileInfo.size = lengths.map Int64.toUInt64) :
    (files.map fun file => (file.size.toNat : ℤ)) = lengths.map Int64.toInt ↔ ∀ n ∈ lengths, 0 ≤ n.toInt := by
  have hcasts : (files.map fun file => (file.size.toNat : ℤ)) = lengths.map fun n => (n.toUInt64.toNat : ℤ) := by
    have := congrArg (List.map fun size : UInt64 => (size.toNat : ℤ)) hsizes
    simpa [Function.comp_def] using this
  rw [hcasts, List.map_inj_left]
  exact forall₂_congr fun n _ => toUInt64_exact_iff n

/-- What is returned are the lengths and their sum modulo `2 ^ 64`; they are exact exactly when no length is
negative and the lengths add up to less than `2 ^ 64`. -/
theorem parseMetadata_exact_iff (overflowChecks : Bool) (decode : List UInt8 → Option Value) (infoBytes : List UInt8)
    {name : String} {total pieceLength : UInt64} {files : List FileInfo}
    (hrun : parseMetadata overflowChecks decode infoBytes = .ok (some (name, total, files, pieceLength))) :
    ∃ dict, decode infoBytes = some (.dict dict) ∧
      (files.map fun file => (file.size.toNat : ℤ)) = (entryLengths dict).map (fun n => n.toInt % 2 ^ 64) ∧
      total.toNat = (files.map fun file => file.size.toNat).sum % 2 ^ 64 ∧
      (((files.map fun file => (file.size.toNat : ℤ)) = (entryLengths dict).map Int64.toInt ∧
          total.toNat = (files.map fun file => file.size.toNat).sum) ↔
        (∀ n ∈ entryLengths dict, 0 ≤ n.toInt) ∧ ((entryLengths dict).map Int64.toInt).sum < 2 ^ 64) := by
  obtain ⟨dict, hdict, hsums⟩ := parseMetadata_sums hrun
  have htotal := total.toNat_lt
  have hcasts := congrArg (List.map fun size : UInt64 => (size.toNat : ℤ)) hsums.sizes
  simp only [List.map_map, Function.comp_def, toNat_toUInt64] at hcasts
  have hcast : (((files.map fun file => file.size.toNat).sum : ℕ) : ℤ) =
      (files.map fun file => (file.size.toNat : ℤ)).sum := by simp [Nat.cast_list_sum, Function.comp_def]
  have hexact := sizes_exact_iff hsums.sizes
  refine ⟨dict, hdict, hcasts, hsums.total, ?_, ?_⟩
  · rintro ⟨hsizes, hsum⟩
    refine ⟨hexact.mp hsizes, ?_⟩
    rw [← hsizes, ← hcast, ← hsum]
    exact_mod_cast htotal
  · rintro ⟨hnonneg, hlt⟩
    have hsizes := hexact.mpr hnonneg
    refine ⟨hsizes, ?_⟩
    rw [← hsizes, ← hcast] at hlt
    rw [hsums.total]
    exact Nat.mod_eq_of_lt (by exact_mod_cast hlt)

def filesInfo (lengths : List Int64) : Value :=
  .dict [(Bencode.ascii "files", .list (lengths.map fun n => .dict [(Bencode.ascii "length", .integer n)]))]

theorem parseMetadata_exact_two_files :
    parseMetadata true (fun _ => some (filesInfo [5, 7])) [] =
        .ok (some ("Unknown", 12, [⟨"", 5⟩, ⟨"", 7⟩], 0)) ∧
      ∃ dict, filesInfo [5, 7] = .dict dict ∧ (∀ n ∈ entryLengths dict, 0 ≤ n.toInt) ∧
        ((entryLengths dict).map Int64.toInt).sum < 2 ^ 64 := by
  have hrun : parseMetadata true (fun _ => some (filesInfo [5, 7])) [] =
      .ok (some ("Unknown", 12, [⟨"", 5⟩, ⟨"", 7⟩], 0)) := by decide
  obtain ⟨dict, hdict, -, -, hexact⟩ := parseMetadata_exact_iff true (fun _ => some (filesInfo [5, 7])) [] hrun
  refine ⟨hrun, dict, Option.some.inj hdict, hexact.mp ?_⟩
  obtain rfl := Value.dict.inj (Option.some.inj hdict)
  exact ⟨by decide, by decide⟩

/-- A single file of length `-1` comes out as the largest size, in every build; and without overflow checks
three files of `2 ^ 64 + 1` bytes in all come out as a torrent of one byte. -/
theorem parseMetadata_wraps :
    (∀ overflowChecks, parseMetadata overflowChecks
      (fun _ => some (.dict [(Bencode.ascii "length", .integer (-1))])) [] =
        .ok (some ("Unknown", 18446744073709551615, [⟨"Unknown", 18446744073709551615⟩], 0))) ∧
      parseMetadata false (fun _ => some (filesInfo [9223372036854775807, 9223372036854775807, 3])) [] =
        .ok (some ("Unknown", 1, [⟨"", 9223372036854775807⟩, ⟨"", 9223372036854775807⟩, ⟨"", 3⟩], 0)) := by
  refine ⟨fun overflowChecks => ?_, by decide⟩
  cases overflowChecks <;> decide

end DhtCrawler
