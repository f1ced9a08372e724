import ZhiyanRag.Lib.Decimals
import ZhiyanRag.Retrieval.Json

/-!
# JSON texts

`json.dumps(value, ensure_ascii=False, separators=(",", ":"))` and `json.loads`. Both refuse an
`int` of more than 4300 digits. What is written is read back (`loads_dumps`), and a text that ends
inside a string is not read (`loads_of_inside`).
-/

namespace ZhiyanRag.Retrieval

open Decimals

/-! ### Writing -/

/-- A hexadecimal digit of `\u00XX`. -/
def hexDigit (n : Nat) : Char := if n < 10 then Char.ofNat (48 + n) else Char.ofNat (87 + n)

/-- `ESCAPE_DCT`. -/
def escapeChar (c : Char) : List Char :=
  if c = '"' then ['\\', '"']
  else if c = '\\' then ['\\', '\\']
  else if c = '\n' then ['\\', 'n']
  else if c = '\r' then ['\\', 'r']
  else if c = '\t' then ['\\', 't']
  else if c.toNat = 12 then ['\\', 'f']
  else if c.toNat = 8 then ['\\', 'b']
  else if c.toNat < 32 then ['\\', 'u', '0', '0', hexDigit (c.toNat / 16), hexDigit (c.toNat % 16)]
  else [c]

def quoted (s : String) : List Char := '"' :: (s.toList.flatMap escapeChar ++ ['"'])

/-- `float.__repr__`, as the encoder uses it. -/
def floatText : PyFloat → List Char
  | .finite value => floatRepr value
  | .infinite negative => if negative then "-Infinity".toList else "Infinity".toList
  | .nan => "NaN".toList

mutual

def dumps : JsonValue → List Char
  | .null => "null".toList
  | .bool value => if value then "true".toList else "false".toList
  | .int value => formatInt value
  | .float value => floatText value
  | .str value => quoted value
  | .array [] => ['[', ']']
  | .array (item :: items) => '[' :: (dumps item ++ dumpsItems items)
  | .object [] => ['{', '}']
  | .object ((name, value) :: members) =>
    '{' :: (quoted name ++ ':' :: (dumps value ++ dumpsMembers members))

/-- The items after the first, and the bracket. -/
def dumpsItems : List JsonValue → List Char
  | [] => [']']
  | item :: items => ',' :: (dumps item ++ dumpsItems items)

/-- The members after the first, and the brace. -/
def dumpsMembers : List (String × JsonValue) → List Char
  | [] => ['}']
  | (name, value) :: members => ',' :: (quoted name ++ ':' :: (dumps value ++ dumpsMembers members))

end

mutual

/-- No integer has more than 4300 digits, which `int.__repr__` refuses. -/
def printable : JsonValue → Bool
  | .int value => decide ((Nat.toDigits 10 value.natAbs).length ≤ 4300)
  | .array items => printableItems items
  | .object members => printableMembers members
  | _ => true

def printableItems : List JsonValue → Bool
  | [] => true
  | item :: items => printable item && printableItems items

def printableMembers : List (String × JsonValue) → Bool
  | [] => true
  | (_, value) :: members => printable value && printableMembers members

end

/-! ### Reading -/

/-- JSON white space. -/
def skipSpace (s : List Char) : List Char :=
  s.dropWhile fun c => decide (c = ' ' ∨ c = '\t' ∨ c = '\n' ∨ c = '\r')

def hexValue (c : Char) : Option Nat :=
  if c.isDigit then some (c.toNat - 48)
  else if 'a' ≤ c ∧ c ≤ 'f' then some (c.toNat - 87)
  else if 'A' ≤ c ∧ c ≤ 'F' then some (c.toNat - 55)
  else none

/-- The four digits of `\uXXXX`. -/
def hexUnit (a b c d : Char) : Option Nat := do
  let a ← hexValue a
  let b ← hexValue b
  let c ← hexValue c
  let d ← hexValue d
  return ((a * 16 + b) * 16 + c) * 16 + d

/-- `BACKSLASH`. -/
def unescape (c : Char) : Option Char :=
  if c = '"' ∨ c = '\\' ∨ c = '/' then some c
  else if c = 'b' then some (Char.ofNat 8)
  else if c = 'f' then some (Char.ofNat 12)
  else if c = 'n' then some '\n'
  else if c = 'r' then some '\r'
  else if c = 't' then some '\t'
  else none

def push (c : Char) (scanned : Option (List Char × List Char)) : Option (List Char × List Char) :=
  scanned.map fun result => (c :: result.1, result.2)

/-- `scanstring`, behind the first quote. A lone surrogate, which no `String` has, is refused here;
a validator of strings refuses it. -/
def scanString : List Char → Option (List Char × List Char)
  | [] => none
  | '"' :: rest => some ([], rest)
  | '\\' :: 'u' :: a :: b :: c :: d :: rest =>
    match hexUnit a b c d with
    | none => none
    | some unit =>
      if 0xD800 ≤ unit ∧ unit ≤ 0xDBFF then
        match rest with
        | '\\' :: 'u' :: a' :: b' :: c' :: d' :: rest' =>
          match hexUnit a' b' c' d' with
          | some low =>
            if 0xDC00 ≤ low ∧ low ≤ 0xDFFF
              then push (Char.ofNat (0x10000 + (unit - 0xD800) * 1024 + (low - 0xDC00)))
                (scanString rest') else none
          | none => none
        | _ => none
      else if 0xDC00 ≤ unit ∧ unit ≤ 0xDFFF then none
      else push (Char.ofNat unit) (scanString rest)
  | '\\' :: c :: rest =>
    match unescape c with
    | some c => push c (scanString rest)
    | none => none
  | c :: rest => if c.toNat < 32 ∨ c = '\\' then none else push c (scanString rest)

def literals : List (String × JsonValue) :=
  [("null", .null), ("true", .bool true), ("false", .bool false), ("NaN", .float .nan),
    ("Infinity", .float (.infinite false)), ("-Infinity", .float (.infinite true))]

def scanLiteral (s : List Char) : Option (JsonValue × List Char) :=
  literals.findSome? fun entry => if entry.1.toList.isPrefixOf s
    then some (entry.2, s.drop entry.1.toList.length) else none

/-- `int(...)` and `float(...)` of a number token. -/
def numberValue (token : Token) : Option JsonValue :=
  if token.isInteger then
    if 4300 < token.whole.length then none else some (.int token.int)
  else some (.float
    (((Binary64.round? token.rational).map PyFloat.finite).getD (.infinite token.negative)))

def scanNumber (s : List Char) : Option (JsonValue × List Char) := do
  let (token, rest) ← readToken s
  let value ← numberValue token
  return (value, rest)

mutual

/-- `scan_once`. -/
def scanOnce : Nat → List Char → Option (JsonValue × List Char)
  | 0, _ => none
  | fuel + 1, s =>
    match s with
    | '"' :: rest => (scanString rest).map fun result => (.str (String.ofList result.1), result.2)
    | '[' :: rest =>
      match skipSpace rest with
      | ']' :: rest => some (.array [], rest)
      | rest => (scanItems fuel rest).map fun result => (.array result.1, result.2)
    | '{' :: rest =>
      match skipSpace rest with
      | '}' :: rest => some (.object [], rest)
      | rest => (scanMembers fuel rest).map fun result =>
        (.object (JsonObject.ofMembers result.1).members.rows, result.2)
    | s => (scanLiteral s).orElse fun _ => scanNumber s

/-- The items of an array from one of them on. -/
def scanItems : Nat → List Char → Option (List JsonValue × List Char)
  | 0, _ => none
  | fuel + 1, s =>
    match scanOnce fuel s with
    | none => none
    | some (item, rest) =>
      match skipSpace rest with
      | ']' :: rest => some ([item], rest)
      | ',' :: rest => (scanItems fuel (skipSpace rest)).map fun result =>
        (item :: result.1, result.2)
      | _ => none

/-- The members of an object from one of them on. -/
def scanMembers : Nat → List Char → Option (List (String × JsonValue) × List Char)
  | 0, _ => none
  | fuel + 1, s =>
    match s with
    | '"' :: rest =>
      match scanString rest with
      | none => none
      | some (name, rest) =>
        match skipSpace rest with
        | ':' :: rest =>
          match scanOnce fuel (skipSpace rest) with
          | none => none
          | some (value, rest) =>
            match skipSpace rest with
            | '}' :: rest => some ([(String.ofList name, value)], rest)
            | ',' :: rest => (scanMembers fuel (skipSpace rest)).map fun result =>
              ((String.ofList name, value) :: result.1, result.2)
            | _ => none
        | _ => none
    | _ => none

end

/-- `json.loads`: nothing but white space may follow the value. -/
def loads (s : List Char) : Option JsonValue :=
  match scanOnce (s.length + 1) (skipSpace s) with
  | some (value, rest) => if (skipSpace rest).isEmpty then some value else none
  | none => none

/-! ### Strings are read back -/

theorem scanString_plain {c : Char} (hquote : c ≠ '"') (hslash : c ≠ '\\') (hcontrol : 32 ≤ c.toNat)
    (rest : List Char) :
    scanString (c :: rest) = push c (scanString rest) := by
  rw [scanString.eq_def]
  split
  · rename_i heq
    cases heq
  · rename_i heq
    exact absurd (List.cons.inj heq).1 hquote
  · rename_i heq
    exact absurd (List.cons.inj heq).1 hslash
  · rename_i heq
    exact absurd (List.cons.inj heq).1 hslash
  · rename_i heq
    obtain ⟨rfl, rfl⟩ := List.cons.inj heq
    rw [if_neg]
    rintro (h | h)
    · omega
    · exact hslash h

theorem scanString_unicode {n : Nat} (hn : n < 32) (rest : List Char) :
    scanString ('\\' :: 'u' :: '0' :: '0' :: hexDigit (n / 16) :: hexDigit (n % 16) :: rest) =
      push (Char.ofNat n) (scanString rest) := by
  have hunit : ∀ n < 32, hexUnit '0' '0' (hexDigit (n / 16)) (hexDigit (n % 16)) =
      some n := by decide
  rw [scanString, hunit n hn]
  simp only
  rw [if_neg (by omega), if_neg (by omega)]

theorem scanString_escapeChar (c : Char) (rest : List Char) :
    scanString (escapeChar c ++ rest) = push c (scanString rest) := by
  have hof : ∀ n, c.toNat = n → Char.ofNat n = c := fun n h => h ▸ Char.ofNat_toNat c
  unfold escapeChar
  split_ifs with hquote hslash hnewline hreturn htab hfeed hback hcontrol
  · subst hquote
    rfl
  · subst hslash
    rfl
  · subst hnewline
    rfl
  · subst hreturn
    rfl
  · subst htab
    rfl
  · rw [← hof 12 hfeed]
    rfl
  · rw [← hof 8 hback]
    rfl
  · show scanString ('\\' :: 'u' :: '0' :: '0' :: _ :: _ :: rest) = _
    rw [scanString_unicode hcontrol, Char.ofNat_toNat]
  · exact scanString_plain hquote hslash (not_lt.mp hcontrol) rest

theorem scanString_flatMap (s rest : List Char) :
    scanString (s.flatMap escapeChar ++ '"' :: rest) = some (s, rest) := by
  induction s with
  | nil => rfl
  | cons c s ih =>
    rw [List.flatMap_cons, List.append_assoc, scanString_escapeChar, ih]
    rfl

/-! ### Numbers are read back -/

/-- The text starts with a digit, or with a dash and a digit. -/
def NumberStart (s : List Char) : Prop :=
  ∃ c cs, c.isDigit = true ∧ (s = c :: cs ∨ s = '-' :: c :: cs)

theorem numberStart_of_readToken {s rest : List Char} {token : Token}
    (h : readToken s = some (token, rest)) : NumberStart s := by
  have hdigits : ∀ {s : List Char} {result}, readDigits s = some result → ∃ c cs, c.isDigit = true ∧
      s = c :: cs := by
    intro s result h
    cases s with
    | nil => cases h
    | cons c cs =>
      cases hc : c.isDigit with
      | true => exact ⟨c, cs, hc, rfl⟩
      | false =>
        rw [readDigits, List.takeWhile_cons_of_neg (by rw [hc]; decide)] at h
        cases h
  have hwhole : ∀ {negative : Bool} {s : List Char} {result},
      readUnsigned negative s = some result → ∃ c cs, c.isDigit = true ∧ s = c :: cs := by
    intro negative s result h
    obtain ⟨whole, hwhole, -⟩ := Option.map_eq_some_iff.mp h
    unfold readWhole at hwhole
    split at hwhole
    · exact ⟨'0', _, by decide, rfl⟩
    · exact hdigits hwhole
  unfold readToken at h
  split at h
  · obtain ⟨c, cs, hc, rfl⟩ := hwhole h
    exact ⟨c, cs, hc, .inr rfl⟩
  · obtain ⟨c, cs, hc, rfl⟩ := hwhole h
    exact ⟨c, cs, hc, .inl rfl⟩

theorem ne_of_isDigit {c d : Char} (hc : c.isDigit = true) (hd : d.isDigit = false) : c ≠ d := by
  rintro rfl
  rw [hc] at hd
  cases hd

theorem NumberStart.scanLiteral {s : List Char} (h : NumberStart s) : scanLiteral s = none := by
  have hnames : ∀ entry ∈ literals, ∃ d e ds, entry.1.toList = d :: e :: ds ∧ d.isDigit = false ∧
      e.isDigit = false := by
    intro entry hentry
    simp only [literals, List.mem_cons, List.not_mem_nil, or_false] at hentry
    rcases hentry with rfl | rfl | rfl | rfl | rfl | rfl <;>
      exact ⟨_, _, _, rfl, by decide, by decide⟩
  unfold Retrieval.scanLiteral
  rw [List.findSome?_eq_none_iff]
  intro entry hentry
  obtain ⟨d, e, ds, hname, hd, he⟩ := hnames entry hentry
  rw [if_neg]
  rw [hname, List.isPrefixOf_iff_prefix]
  obtain ⟨c, cs, hc, rfl | rfl⟩ := h
  · exact fun hprefix => ne_of_isDigit hc hd (List.cons_prefix_cons.mp hprefix).1.symm
  · exact fun hprefix =>
      ne_of_isDigit hc he (List.cons_prefix_cons.mp (List.cons_prefix_cons.mp hprefix).2).1.symm

theorem scanOnce_number {s rest : List Char} {token : Token} {value : JsonValue} (fuel : Nat)
    (htoken : readToken s = some (token, rest)) (hvalue : numberValue token = some value) :
    scanOnce (fuel + 1) s = some (value, rest) := by
  have hstart := numberStart_of_readToken htoken
  have hnumber : (scanLiteral s).orElse (fun _ => scanNumber s) = some (value, rest) := by
    rw [hstart.scanLiteral]
    show scanNumber s = _
    unfold scanNumber
    rw [htoken]
    show (numberValue token).bind _ = _
    rw [hvalue]
    rfl
  obtain ⟨c, cs, hc, rfl | rfl⟩ := hstart
  · unfold scanOnce
    split
    · rename_i heq
      exact absurd (List.cons.inj heq).1 (ne_of_isDigit hc (by decide))
    · rename_i heq
      exact absurd (List.cons.inj heq).1 (ne_of_isDigit hc (by decide))
    · rename_i heq
      exact absurd (List.cons.inj heq).1 (ne_of_isDigit hc (by decide))
    · exact hnumber
  · exact hnumber

/-! ### Values are read back -/

mutual

/-- Every `float` is a finite binary64 number, and no object has a name twice. -/
def readable : JsonValue → Bool
  | .float (.finite value) => Binary64.isDouble value
  | .float _ => false
  | .array items => readableItems items
  | .object members => decide (members.map Prod.fst).Nodup && readableMembers members
  | _ => true

def readableItems : List JsonValue → Bool
  | [] => true
  | item :: items => readable item && readableItems items

def readableMembers : List (String × JsonValue) → Bool
  | [] => true
  | (_, value) :: members => readable value && readableMembers members

end

theorem rows_ofMembers {members : List (String × JsonValue)} (h : (members.map Prod.fst).Nodup) :
    (JsonObject.ofMembers members).members.rows = members := by
  have hput : ∀ (members : List (String × JsonValue)) (payload : JsonObject),
      ((payload.members.rows ++ members).map Prod.fst).Nodup →
      (members.foldl (fun payload member => payload.put member.1 member.2) payload).members.rows =
        payload.members.rows ++ members := by
    intro members
    induction members with
    | nil => exact fun payload _ => (List.append_nil _).symm
    | cons member members ih =>
      intro payload hnodup
      have hnew : member.1 ∉ payload.members.rows.map Prod.fst := by
        rw [List.map_append, List.nodup_append] at hnodup
        exact fun hmem => hnodup.2.2 _ hmem _ (List.mem_map_of_mem List.mem_cons_self) rfl
      have hrows : (payload.put member.1 member.2).members.rows = payload.members.rows ++
          [member] := by
        cases hinsert : payload.members.insert? (member.1, member.2) with
        | none =>
          exact absurd (Relational.Table.mem_keys_iff.mpr
            (Option.isSome_iff_ne_none.mpr (Relational.Table.find?_ne_none_of_insert? hinsert)))
              hnew
        | some table =>
          unfold JsonObject.put Relational.Table.upsert
          rw [hinsert]
          exact Relational.Table.rows_insert? hinsert
      rw [List.foldl_cons, ih _ (by rwa [hrows, List.append_assoc]), hrows, List.append_assoc]
      rfl
  exact hput members ⟨Relational.Table.empty⟩ h

theorem skipSpace_cons {c : Char} (hc : ¬(c = ' ' ∨ c = '\t' ∨ c = '\n' ∨ c = '\r'))
    (s : List Char) : skipSpace (c :: s) = c :: s :=
  List.dropWhile_cons_of_neg (by simpa using hc)

theorem stops_cons {c : Char} (hc : c.isDigit = false ∧ c ≠ '.' ∧ c ≠ 'e' ∧ c ≠ 'E')
    (s : List Char) : Stops (c :: s) := fun d hd => by
  cases hd
  exact hc

/-- A value starts with no white space and no bracket that ends an array. -/
def ValueStart (s : List Char) : Prop :=
  ∃ c cs, s = c :: cs ∧ ¬(c = ' ' ∨ c = '\t' ∨ c = '\n' ∨ c = '\r') ∧ c ≠ ']'

theorem NumberStart.valueStart {s : List Char} (h : NumberStart s) : ValueStart s := by
  obtain ⟨c, cs, hc, rfl | rfl⟩ := h
  · refine ⟨c, cs, rfl, ?_, ne_of_isDigit hc (by decide)⟩
    rintro (rfl | rfl | rfl | rfl) <;> exact absurd hc (by decide)
  · exact ⟨'-', c :: cs, rfl, by decide, by decide⟩

/-- What is read of a printed number. -/
theorem readToken_number {value : JsonValue} (hprintable : printable value = true)
    (hreadable : readable value = true) {rest : List Char}
    (hnumber : (∃ n, value = .int n) ∨ ∃ x, value = .float x) (hrest : Stops rest) :
    ∃ token, readToken (dumps value ++ rest) = some (token, rest) ∧
    numberValue token = some value := by
  rcases hnumber with ⟨n, rfl⟩ | ⟨x, rfl⟩
  · obtain ⟨token, hread, hinteger, hint, hwhole⟩ := readToken_formatInt n hrest
    rw [printable, decide_eq_true_eq] at hprintable
    refine ⟨token, by rw [dumps]; exact hread, ?_⟩
    rw [numberValue, if_pos hinteger, hwhole, if_neg (by omega), hint]
  · cases x with
    | finite q =>
      rw [readable] at hreadable
      obtain ⟨token, hread, hinteger, hround⟩ := readToken_floatRepr hreadable hrest
      refine ⟨token, by rw [dumps]; exact hread, ?_⟩
      rw [numberValue, hinteger, hround]
      rfl
    | infinite negative => simp [readable] at hreadable
    | nan => simp [readable] at hreadable

theorem dumps_start {value : JsonValue} (hprintable : printable value = true)
    (hreadable : readable value = true) : ValueStart (dumps value) := by
  have hnumber : ((∃ n, value = .int n) ∨ ∃ x, value = .float x) → ValueStart (dumps value) := by
    intro h
    obtain ⟨token, hread, -⟩ : ∃ token, readToken (dumps value ++ []) = some (token, []) ∧
        numberValue token = some value :=
      readToken_number hprintable hreadable h fun c hc => by cases hc
    rw [List.append_nil] at hread
    exact (numberStart_of_readToken hread).valueStart
  cases value with
  | null => exact ⟨'n', _, by rw [dumps]; rfl, by decide, by decide⟩
  | bool value =>
    cases value with
    | false => exact ⟨'f', _, by rw [dumps]; rfl, by decide, by decide⟩
    | true => exact ⟨'t', _, by rw [dumps]; rfl, by decide, by decide⟩
  | int n => exact hnumber (.inl ⟨n, rfl⟩)
  | float x => exact hnumber (.inr ⟨x, rfl⟩)
  | str s => exact ⟨'"', _, by rw [dumps]; rfl, by decide, by decide⟩
  | array items =>
    cases items with
    | nil => exact ⟨'[', _, by rw [dumps], by decide, by decide⟩
    | cons item items => exact ⟨'[', _, by rw [dumps], by decide, by decide⟩
  | object members =>
    cases members with
    | nil => exact ⟨'{', _, by rw [dumps], by decide, by decide⟩
    | cons member members => exact ⟨'{', _, by rw [dumps], by decide, by decide⟩

theorem scanOnce_literal {name : String} {value : JsonValue} (fuel : Nat) (rest : List Char)
    (hmem : (name, value) ∈
      ([("null", .null), ("true", .bool true), ("false", .bool false)] : List
        (String × JsonValue))) :
    scanOnce (fuel + 1) (name.toList ++ rest) = some (value, rest) := by
  simp only [List.mem_cons, List.not_mem_nil, or_false, Prod.mk.injEq] at hmem
  rcases hmem with ⟨rfl, rfl⟩ | ⟨rfl, rfl⟩ | ⟨rfl, rfl⟩
  · rfl
  · rfl
  · rfl

/-- The text of items, the first without a comma, and of their bracket. -/
def itemsText : List JsonValue → List Char
  | [] => []
  | item :: items => dumps item ++ dumpsItems items

def membersText : List (String × JsonValue) → List Char
  | [] => []
  | (name, value) :: members => quoted name ++ ':' :: (dumps value ++ dumpsMembers members)

theorem scanString_quoted (name : String) (rest : List Char) :
    ∃ text, quoted name ++ rest = '"' :: text ∧ scanString text = some (name.toList, rest) := by
  refine ⟨name.toList.flatMap escapeChar ++ '"' :: rest, ?_, scanString_flatMap _ _⟩
  unfold quoted
  rw [List.cons_append, List.append_assoc]
  rfl

theorem ValueStart.skipSpace {s rest : List Char} (h : ValueStart s) :
    skipSpace (s ++ rest) = s ++ rest := by
  obtain ⟨c, cs, rfl, hspace, -⟩ := h
  exact skipSpace_cons hspace _

theorem itemsText_length (items : List JsonValue) :
    (dumpsItems items).length = (itemsText items).length + 1 := by
  cases items with
  | nil => rw [dumpsItems, itemsText]; rfl
  | cons item items => rw [dumpsItems, itemsText]; rfl

theorem membersText_length (members : List (String × JsonValue)) :
    (dumpsMembers members).length = (membersText members).length + 1 := by
  cases members with
  | nil => rw [dumpsMembers, membersText]; rfl
  | cons member members => rw [dumpsMembers, membersText]; rfl

theorem dumpsItems_stops (items : List JsonValue) (rest : List Char) :
    Stops (dumpsItems items ++ rest) := by
  cases items with
  | nil => rw [dumpsItems]; exact stops_cons (by decide) _
  | cons item items => rw [dumpsItems]; exact stops_cons (by decide) _

theorem dumpsMembers_stops (members : List (String × JsonValue)) (rest : List Char) :
    Stops (dumpsMembers members ++ rest) := by
  cases members with
  | nil => rw [dumpsMembers]; exact stops_cons (by decide) _
  | cons member members => rw [dumpsMembers]; exact stops_cons (by decide) _

mutual

/-- A printed value is read back, whatever stops it. The recursion is on the value; the fuel is at
least the length of the text. -/
theorem scanOnce_dumps : ∀ (value : JsonValue) (fuel : Nat) (rest : List Char),
    printable value = true → readable value = true → (dumps value).length ≤ fuel → Stops rest →
    scanOnce fuel (dumps value ++ rest) = some (value, rest)
  | .null, fuel + 1, rest, _, _, _, _ => by
    rw [dumps]
    exact scanOnce_literal fuel rest (by simp)
  | .bool true, fuel + 1, rest, _, _, _, _ => by
    rw [dumps]
    exact scanOnce_literal fuel rest (by simp)
  | .bool false, fuel + 1, rest, _, _, _, _ => by
    rw [dumps]
    exact scanOnce_literal fuel rest (by simp)
  | .int n, fuel + 1, rest, hprintable, hreadable, _, hrest => by
    obtain ⟨token, hread, hvalue⟩ := readToken_number hprintable hreadable (.inl ⟨n, rfl⟩) hrest
    exact scanOnce_number fuel hread hvalue
  | .float x, fuel + 1, rest, hprintable, hreadable, _, hrest => by
    obtain ⟨token, hread, hvalue⟩ := readToken_number hprintable hreadable (.inr ⟨x, rfl⟩) hrest
    exact scanOnce_number fuel hread hvalue
  | .str s, fuel + 1, rest, _, _, _, _ => by
    obtain ⟨text, htext, hscan⟩ := scanString_quoted s rest
    rw [dumps, htext, scanOnce, hscan, Option.map_some, String.ofList_toList]
  | .array [], fuel + 1, rest, _, _, _, _ => by
    rw [dumps]
    rfl
  | .array (item :: items), fuel + 1, rest, hprintable, hreadable, hfuel, hrest => by
    have hlength : (itemsText (item :: items)).length ≤ fuel := by
      rw [dumps, List.length_cons] at hfuel
      exact Nat.le_of_succ_le_succ hfuel
    rw [printable] at hprintable
    rw [readable] at hreadable
    have hscan := scanItems_itemsText (item :: items) fuel rest (List.cons_ne_nil _ _) hprintable
      hreadable hlength
    rw [printableItems, Bool.and_eq_true] at hprintable
    rw [readableItems, Bool.and_eq_true] at hreadable
    obtain ⟨c, cs, hstart, hspace, hbracket⟩ := dumps_start hprintable.1 hreadable.1
    rw [itemsText, hstart, List.cons_append, List.cons_append] at hscan
    rw [dumps, hstart, List.cons_append, List.cons_append, List.cons_append, scanOnce,
      skipSpace_cons hspace]
    split
    · rename_i heq
      exact absurd (List.cons.inj heq).1 hbracket
    · rw [hscan]
      rfl
  | .object [], fuel + 1, rest, _, _, _, _ => by
    rw [dumps]
    rfl
  | .object ((name, value) :: members), fuel + 1, rest, hprintable, hreadable, hfuel, hrest => by
    have hlength : (membersText ((name, value) :: members)).length ≤ fuel := by
      rw [dumps, List.length_cons] at hfuel
      exact Nat.le_of_succ_le_succ hfuel
    rw [printable] at hprintable
    rw [readable, Bool.and_eq_true, decide_eq_true_eq] at hreadable
    have hscan := scanMembers_membersText ((name, value) :: members) fuel rest
      (List.cons_ne_nil _ _) hprintable hreadable.2 hlength
    obtain ⟨text, htext, -⟩ :=
      scanString_quoted name (':' :: (dumps value ++ dumpsMembers members) ++ rest)
    rw [membersText, List.append_assoc, htext] at hscan
    rw [dumps, List.cons_append, List.append_assoc, htext, scanOnce, skipSpace_cons (by decide)]
    show (scanMembers fuel ('"' :: text)).map _ = _
    rw [hscan, Option.map_some, rows_ofMembers hreadable.1]
  | value, 0, rest, hprintable, hreadable, hfuel, _ => by
    obtain ⟨c, cs, hstart, -⟩ := dumps_start hprintable hreadable
    rw [hstart] at hfuel
    cases hfuel

theorem scanItems_itemsText : ∀ (items : List JsonValue) (fuel : Nat) (rest : List Char),
    items ≠ [] → printableItems items = true → readableItems items = true →
    (itemsText items).length ≤ fuel → scanItems fuel (itemsText items ++ rest) = some (items, rest)
  | [], _, _, hne, _, _, _ => absurd rfl hne
  | item :: items, 0, rest, _, hprintable, hreadable, hfuel => by
    rw [printableItems, Bool.and_eq_true] at hprintable
    rw [readableItems, Bool.and_eq_true] at hreadable
    obtain ⟨c, cs, hstart, -⟩ := dumps_start hprintable.1 hreadable.1
    rw [itemsText, hstart] at hfuel
    cases hfuel
  | item :: items, fuel + 1, rest, _, hprintable, hreadable, hfuel => by
    rw [printableItems, Bool.and_eq_true] at hprintable
    rw [readableItems, Bool.and_eq_true] at hreadable
    obtain ⟨c, cs, hstart, -⟩ := dumps_start hprintable.1 hreadable.1
    have hpositive : 0 < (dumps item).length := hstart ▸ Nat.succ_pos _
    rw [itemsText, List.length_append, itemsText_length] at hfuel
    have hitem := scanOnce_dumps item fuel (dumpsItems items ++ rest) hprintable.1 hreadable.1
      (by omega) (dumpsItems_stops items rest)
    rw [itemsText, List.append_assoc, scanItems, hitem]
    cases items with
    | nil =>
      rw [dumpsItems, List.cons_append, List.nil_append]
      simp only
      rw [skipSpace_cons (by decide)]
      rfl
    | cons next items =>
      have hnext := hprintable.2
      have hnext' := hreadable.2
      rw [printableItems, Bool.and_eq_true] at hnext
      rw [readableItems, Bool.and_eq_true] at hnext'
      have hmore := scanItems_itemsText (next :: items) fuel rest (List.cons_ne_nil _ _)
        hprintable.2 hreadable.2 (by omega)
      rw [itemsText, List.append_assoc] at hmore
      rw [dumpsItems, List.cons_append]
      simp only
      rw [skipSpace_cons (by decide)]
      simp only
      rw [List.append_assoc, (dumps_start hnext.1 hnext'.1).skipSpace, hmore, Option.map_some]

theorem scanMembers_membersText : ∀ (members : List (String × JsonValue)) (fuel : Nat)
    (rest : List Char), members ≠ [] → printableMembers members = true →
    readableMembers members = true → (membersText members).length ≤ fuel →
    scanMembers fuel (membersText members ++ rest) = some (members, rest)
  | [], _, _, hne, _, _, _ => absurd rfl hne
  | (name, value) :: members, 0, rest, _, _, _, hfuel => by
    rw [membersText, quoted, List.cons_append] at hfuel
    cases hfuel
  | (name, value) :: members, fuel + 1, rest, _, hprintable, hreadable, hfuel => by
    rw [printableMembers, Bool.and_eq_true] at hprintable
    rw [readableMembers, Bool.and_eq_true] at hreadable
    have hquoted : 2 ≤ (quoted name).length := by
      unfold quoted
      rw [List.length_cons, List.length_append, List.length_singleton]
      omega
    rw [membersText, List.length_append, List.length_cons, List.length_append, membersText_length]
      at hfuel
    obtain ⟨text, htext, hscan⟩ :=
      scanString_quoted name (':' :: (dumps value ++ dumpsMembers members) ++ rest)
    have hvalue := scanOnce_dumps value fuel (dumpsMembers members ++ rest) hprintable.1 hreadable.1
      (by omega) (dumpsMembers_stops members rest)
    rw [membersText, List.append_assoc, htext, scanMembers, hscan]
    simp only
    rw [List.cons_append, skipSpace_cons (by decide)]
    simp only
    rw [List.append_assoc, (dumps_start hprintable.1 hreadable.1).skipSpace, hvalue]
    cases members with
    | nil =>
      rw [dumpsMembers, List.cons_append, List.nil_append]
      simp only
      rw [skipSpace_cons (by decide), String.ofList_toList]
      rfl
    | cons next members =>
      have hmore := scanMembers_membersText (next :: members) fuel rest (List.cons_ne_nil _ _)
        hprintable.2 hreadable.2 (by omega)
      obtain ⟨nextName, next⟩ := next
      obtain ⟨nextText, hnextText, -⟩ :=
        scanString_quoted nextName (':' :: (dumps next ++ dumpsMembers members) ++ rest)
      rw [membersText, List.append_assoc, hnextText] at hmore
      rw [dumpsMembers, List.cons_append]
      simp only
      rw [skipSpace_cons (by decide)]
      simp only
      rw [List.append_assoc, hnextText, skipSpace_cons (by decide), hmore, Option.map_some,
        String.ofList_toList]

end

/-- What is written is read back. -/
theorem loads_dumps {value : JsonValue} (hprintable : printable value = true)
    (hreadable : readable value = true) :
    loads (dumps value) = some value := by
  have hscan := scanOnce_dumps value ((dumps value).length + 1) [] hprintable hreadable
    (Nat.le_succ _) fun c hc => by cases hc
  have hspace : skipSpace (dumps value ++ []) = dumps value ++ [] :=
    (dumps_start hprintable hreadable).skipSpace
  rw [List.append_nil] at hscan hspace
  unfold loads
  rw [hspace, hscan]
  rfl

/-! ### Inside and outside of strings -/

inductive LexState
  | outside
  | inside
  | escaped
  deriving DecidableEq

def LexState.step : LexState → Char → LexState
  | .outside, c => if c = '"' then .inside else .outside
  | .inside, c => if c = '"' then .outside else if c = '\\' then .escaped else .inside
  | .escaped, _ => .inside

def lex (state : LexState) (s : List Char) : LexState := s.foldl LexState.step state

theorem lex_append (state : LexState) (s t : List Char) :
    lex state (s ++ t) = lex (lex state s) t := List.foldl_append

theorem lex_outside_cons {c : Char} (hc : c ≠ '"') (s : List Char) :
    lex .outside (c :: s) = lex .outside s := by
  show lex (LexState.outside.step c) s = _
  rw [LexState.step, if_neg hc]

theorem lex_inside_cons {c : Char} (hquote : c ≠ '"') (hslash : c ≠ '\\') (s : List Char) :
    lex .inside (c :: s) = lex .inside s := by
  show lex (LexState.inside.step c) s = _
  rw [LexState.step, if_neg hquote, if_neg hslash]

theorem lex_outside_append {consumed : List Char} (h : ∀ c ∈ consumed, c ≠ '"') (s : List Char) :
    lex .outside (consumed ++ s) = lex .outside s := by
  induction consumed with
  | nil => rfl
  | cons c consumed ih =>
    obtain ⟨hc, hrest⟩ := List.forall_mem_cons.mp h
    rw [List.cons_append, lex_outside_cons hc, ih hrest]

theorem lex_skipSpace (s : List Char) : lex .outside (skipSpace s) = lex .outside s := by
  induction s with
  | nil => rfl
  | cons c s ih =>
    unfold skipSpace
    rw [List.dropWhile_cons]
    split
    · rename_i hspace
      rw [lex_outside_cons (by rintro rfl; simp at hspace)]
      exact ih
    · rfl

theorem hexValue_ne {c : Char} {n : Nat} (h : hexValue c = some n) : c ≠ '"' ∧ c ≠ '\\' := by
  constructor
  · rintro rfl
    cases h
  · rintro rfl
    cases h

/-- The four digits of an escape are inside the string. -/
theorem lex_hexUnit {a b c d : Char} {n : Nat} (h : hexUnit a b c d = some n) (s : List Char) :
    lex .inside ('\\' :: 'u' :: a :: b :: c :: d :: s) = lex .inside s := by
  obtain ⟨_, ha, h⟩ := Option.bind_eq_some_iff.mp h
  obtain ⟨_, hb, h⟩ := Option.bind_eq_some_iff.mp h
  obtain ⟨_, hc, h⟩ := Option.bind_eq_some_iff.mp h
  obtain ⟨_, hd, -⟩ := Option.bind_eq_some_iff.mp h
  show lex .inside (a :: b :: c :: d :: s) = _
  rw [lex_inside_cons (hexValue_ne ha).1 (hexValue_ne ha).2,
    lex_inside_cons (hexValue_ne hb).1 (hexValue_ne hb).2, lex_inside_cons (hexValue_ne hc).1
      (hexValue_ne hc).2, lex_inside_cons (hexValue_ne hd).1 (hexValue_ne hd).2]

theorem push_eq_some {c : Char} {scanned : Option (List Char × List Char)}
    {result : List Char × List Char} (h : push c scanned = some result) :
    ∃ text, scanned = some (text, result.2) := by
  obtain ⟨⟨text, rest⟩, hscanned, rfl⟩ := Option.map_eq_some_iff.mp h
  exact ⟨text, hscanned⟩

/-- A scanned string starts inside and ends outside. -/
theorem lex_scanString {s : List Char} {result : List Char × List Char}
    (h : scanString s = some result) : lex .inside s = lex .outside result.2 := by
  fun_induction scanString s generalizing result with
  | case1 => cases h
  | case2 rest =>
    obtain rfl := Option.some.inj h
    rfl
  | case3 => cases h
  | case4 a b c d unit hunit hhigh a' b' c' d' rest' low hlow hlowRange ih =>
    obtain ⟨text, htext⟩ := push_eq_some h
    rw [lex_hexUnit hunit, lex_hexUnit hlow, ih htext]
  | case5 => cases h
  | case6 => cases h
  | case7 => cases h
  | case8 => cases h
  | case9 a b c d rest unit hunit hhigh hlow ih =>
    obtain ⟨text, htext⟩ := push_eq_some h
    rw [lex_hexUnit hunit, ih htext]
  | case10 c rest hunicode c' hc' ih =>
    obtain ⟨text, htext⟩ := push_eq_some h
    show lex .inside rest = _
    rw [ih htext]
  | case11 => cases h
  | case12 => cases h
  | case13 c rest hquote _ _ hplain ih =>
    obtain ⟨text, htext⟩ := push_eq_some h
    rw [lex_inside_cons hquote (not_or.mp hplain).2, ih htext]

theorem lex_scanLiteral {s : List Char} {result : JsonValue × List Char}
    (h : scanLiteral s = some result) : lex .outside s = lex .outside result.2 := by
  have hnames : ∀ entry ∈ literals, ∀ c ∈ entry.1.toList, c ≠ '"' := by
    intro entry hentry
    have hall : ∀ entry ∈ literals, (entry.1.toList.all fun c => decide (c ≠ '"')) =
        true := by decide
    exact fun c hc => of_decide_eq_true (List.all_eq_true.mp (hall entry hentry) c hc)
  obtain ⟨entry, hentry, h⟩ := List.exists_of_findSome?_eq_some h
  split at h
  · rename_i hprefix
    obtain ⟨rest, rfl⟩ := List.isPrefixOf_iff_prefix.mp hprefix
    obtain rfl := Option.some.inj h
    rw [List.drop_left, lex_outside_append (hnames entry hentry)]
  · cases h

/-- A character of a number token. -/
def isNumberChar (c : Char) : Bool := c.isDigit || ['-', '+', '.', 'e', 'E'].contains c

/-- The text is what was read, characters of numbers, and the rest. -/
def ReadNumber (s rest : List Char) : Prop :=
  ∃ consumed, s = consumed ++ rest ∧ ∀ c ∈ consumed, isNumberChar c = true

theorem ReadNumber.refl (s : List Char) : ReadNumber s s := ⟨[], rfl, by simp⟩

theorem ReadNumber.cons {c : Char} {s rest : List Char} (hc : isNumberChar c = true)
    (h : ReadNumber s rest) : ReadNumber (c :: s) rest := by
  obtain ⟨consumed, rfl, hconsumed⟩ := h
  exact ⟨c :: consumed, rfl, List.forall_mem_cons.mpr ⟨hc, hconsumed⟩⟩

theorem ReadNumber.trans {s t rest : List Char} (h : ReadNumber s t) (h' : ReadNumber t rest) :
    ReadNumber s rest := by
  obtain ⟨consumed, rfl, hconsumed⟩ := h
  obtain ⟨more, rfl, hmore⟩ := h'
  exact ⟨consumed ++ more, (List.append_assoc _ _ _).symm,
    List.forall_mem_append.mpr ⟨hconsumed, hmore⟩⟩

theorem readDigits_read {s : List Char} {result : List Char × List Char}
    (h : readDigits s = some result) : ReadNumber s result.2 := by
  unfold readDigits at h
  split at h
  · cases h
  · obtain rfl := Option.some.inj h
    refine ⟨s.takeWhile Char.isDigit, (List.takeWhile_append_dropWhile).symm, fun c hc => ?_⟩
    rw [isNumberChar, List.all_eq_true.mp List.all_takeWhile c hc, Bool.true_or]

theorem readWhole_read {s : List Char} {result : List Char × List Char}
    (h : readWhole s = some result) : ReadNumber s result.2 := by
  unfold readWhole at h
  split at h
  · obtain rfl := Option.some.inj h
    exact (ReadNumber.refl _).cons (by decide)
  · exact readDigits_read h

theorem readFraction_read (s : List Char) : ReadNumber s (readFraction s).2 := by
  unfold readFraction
  split
  · rename_i s
    cases hread : readDigits s with
    | none => exact ReadNumber.refl _
    | some result => exact (readDigits_read hread).cons (by decide)
  · exact ReadNumber.refl _

theorem readSign_read (s : List Char) : ReadNumber s (readSign s).2 := by
  unfold readSign
  split
  · exact (ReadNumber.refl _).cons (by decide)
  · exact (ReadNumber.refl _).cons (by decide)
  · exact ReadNumber.refl _

theorem readExponent_read (s : List Char) : ReadNumber s (readExponent s).2 := by
  cases s with
  | nil => exact ReadNumber.refl _
  | cons c s =>
    by_cases he : c = 'e' ∨ c = 'E'
    · rw [readExponent, if_pos he]
      cases hread : readDigits (readSign s).2 with
      | none => exact ReadNumber.refl _
      | some result =>
        exact ((readSign_read s).trans (readDigits_read hread)).cons
          (by rcases he with rfl | rfl <;> decide)
    · rw [readExponent, if_neg he]
      exact ReadNumber.refl _

theorem readToken_read {s rest : List Char} {token : Token} (h : readToken s = some (token, rest)) :
    ReadNumber s rest := by
  have hunsigned : ∀ {negative : Bool} {s : List Char},
      readUnsigned negative s = some (token, rest) → ReadNumber s rest := by
    intro negative s h
    obtain ⟨whole, hread, heq⟩ := Option.map_eq_some_iff.mp h
    rw [← (Prod.mk.inj heq).2]
    exact (readWhole_read hread).trans ((readFraction_read whole.2).trans (readExponent_read _))
  unfold readToken at h
  split at h
  · exact (hunsigned h).cons (by decide)
  · exact hunsigned h

theorem isNumberChar_ne {c : Char} (h : isNumberChar c = true) : c ≠ '"' := by
  rintro rfl
  cases h

theorem lex_scanNumber {s : List Char} {result : JsonValue × List Char}
    (h : scanNumber s = some result) : lex .outside s = lex .outside result.2 := by
  obtain ⟨⟨token, rest⟩, hread, h⟩ := Option.bind_eq_some_iff.mp h
  obtain ⟨value, -, h⟩ := Option.bind_eq_some_iff.mp h
  obtain rfl := Option.some.inj h
  obtain ⟨consumed, rfl, hconsumed⟩ := readToken_read hread
  exact lex_outside_append (fun c hc => isNumberChar_ne (hconsumed c hc)) rest

theorem lex_scanOnce {fuel : Nat}
    (hitems : ∀ s result, scanItems fuel s = some result → lex .outside s = lex .outside result.2)
    (hmembers : ∀ s result, scanMembers fuel s = some result →
      lex .outside s = lex .outside result.2)
    {s : List Char} {result : JsonValue × List Char} (h : scanOnce (fuel + 1) s = some result) :
    lex .outside s = lex .outside result.2 := by
  rw [scanOnce.eq_def] at h
  simp only at h
  split at h
  · obtain ⟨scanned, hscan, rfl⟩ := Option.map_eq_some_iff.mp h
    exact lex_scanString hscan
  · rename_i rest
    rw [lex_outside_cons (by decide), ← lex_skipSpace rest]
    split at h
    · rename_i hskip
      obtain rfl := Option.some.inj h
      rw [hskip, lex_outside_cons (by decide)]
    · obtain ⟨scanned, hscan, rfl⟩ := Option.map_eq_some_iff.mp h
      exact hitems _ _ hscan
  · rename_i rest
    rw [lex_outside_cons (by decide), ← lex_skipSpace rest]
    split at h
    · rename_i hskip
      obtain rfl := Option.some.inj h
      rw [hskip, lex_outside_cons (by decide)]
    · obtain ⟨scanned, hscan, rfl⟩ := Option.map_eq_some_iff.mp h
      exact hmembers _ _ hscan
  · cases hliteral : scanLiteral s with
    | some scanned =>
      rw [hliteral] at h
      obtain rfl := Option.some.inj h
      exact lex_scanLiteral hliteral
    | none =>
      rw [hliteral] at h
      exact lex_scanNumber h

theorem lex_scanItems {fuel : Nat}
    (hvalue : ∀ s result, scanOnce fuel s = some result → lex .outside s = lex .outside result.2)
    (hitems : ∀ s result, scanItems fuel s = some result → lex .outside s = lex .outside result.2)
    {s : List Char} {result : List JsonValue × List Char}
    (h : scanItems (fuel + 1) s = some result) : lex .outside s = lex .outside result.2 := by
  rw [scanItems.eq_def] at h
  simp only at h
  split at h
  · cases h
  · rename_i item rest hscan
    rw [hvalue _ _ hscan, ← lex_skipSpace rest]
    split at h
    · rename_i hskip
      obtain rfl := Option.some.inj h
      rw [hskip, lex_outside_cons (by decide)]
    · rename_i hskip
      obtain ⟨scanned, hmore, rfl⟩ := Option.map_eq_some_iff.mp h
      rw [hskip, lex_outside_cons (by decide), ← lex_skipSpace]
      rw [hitems _ _ hmore]
    · cases h

theorem lex_scanMembers {fuel : Nat}
    (hvalue : ∀ s result, scanOnce fuel s = some result → lex .outside s = lex .outside result.2)
    (hmembers : ∀ s result, scanMembers fuel s = some result →
      lex .outside s = lex .outside result.2)
    {s : List Char} {result : List (String × JsonValue) × List Char}
    (h : scanMembers (fuel + 1) s = some result) : lex .outside s = lex .outside result.2 := by
  rw [scanMembers.eq_def] at h
  simp only at h
  split at h
  · rename_i rest
    split at h
    · cases h
    · rename_i name behindName hname
      show lex .inside rest = _
      rw [lex_scanString hname, ← lex_skipSpace]
      simp only
      split at h
      · rename_i behindColon hcolon
        rw [hcolon, lex_outside_cons (by decide), ← lex_skipSpace]
        split at h
        · cases h
        · rename_i value behindValue hscan
          rw [hvalue _ _ hscan, ← lex_skipSpace]
          simp only
          split at h
          · rename_i hskip
            obtain rfl := Option.some.inj h
            rw [hskip, lex_outside_cons (by decide)]
          · rename_i hskip
            obtain ⟨scanned, hmore, rfl⟩ := Option.map_eq_some_iff.mp h
            rw [hskip, lex_outside_cons (by decide), ← lex_skipSpace]
            rw [hmembers _ _ hmore]
          · cases h
      · cases h
  · cases h

/-- A scanned value starts and ends outside. -/
theorem lex_scan (fuel : Nat) :
    (∀ s result, scanOnce fuel s = some result → lex .outside s = lex .outside result.2) ∧
    (∀ s result, scanItems fuel s = some result → lex .outside s = lex .outside result.2) ∧
    (∀ s result, scanMembers fuel s = some result → lex .outside s = lex .outside result.2) := by
  induction fuel with
  | zero =>
    refine ⟨fun s result h => ?_, fun s result h => ?_, fun s result h => ?_⟩
    · rw [scanOnce] at h; cases h
    · rw [scanItems] at h; cases h
    · rw [scanMembers] at h; cases h
  | succ fuel ih =>
    obtain ⟨hvalue, hitems, hmembers⟩ := ih
    exact ⟨fun s result h => lex_scanOnce hitems hmembers h,
      fun s result h => lex_scanItems hvalue hitems h,
      fun s result h => lex_scanMembers hvalue hmembers h⟩

/-- A text that ends inside a string is not read. -/
theorem loads_of_inside {s : List Char} (h : lex .outside s = .inside) : loads s = none := by
  unfold loads
  split
  · rename_i value rest hscan
    have hlex := (lex_scan _).1 _ _ hscan
    rw [lex_skipSpace, h] at hlex
    split_ifs with hempty
    · rw [List.isEmpty_iff] at hempty
      rw [← lex_skipSpace, hempty] at hlex
      cases hlex
    · rfl
  · rfl

/-! ### Where characters stand -/

/-- A printable ASCII character. -/
def isPlain (c : Char) : Bool := decide (32 ≤ c.toNat ∧ c.toNat ≤ 126)

/-- Every other character of the text stands inside a string. -/
def InStrings : LexState → List Char → Prop
  | _, [] => True
  | state, c :: s => (isPlain c = false → state = .inside) ∧ InStrings (state.step c) s

theorem inStrings_append {state : LexState} {s t : List Char} :
    InStrings state (s ++ t) ↔ InStrings state s ∧ InStrings (lex state s) t := by
  induction s generalizing state with
  | nil => exact ⟨fun h => ⟨trivial, h⟩, fun h => h.2⟩
  | cons c s ih =>
    show _ ∧ InStrings (state.step c) (s ++ t) ↔ (_ ∧ InStrings (state.step c) s) ∧
      InStrings (lex (state.step c) s) t
    rw [ih, and_assoc]

theorem inStrings_of_plain {state : LexState} {s : List Char} (h : ∀ c ∈ s, isPlain c = true) :
    InStrings state s := by
  induction s generalizing state with
  | nil => trivial
  | cons c s ih =>
    obtain ⟨hc, hs⟩ := List.forall_mem_cons.mp h
    refine ⟨fun hplain => ?_, ih hs⟩
    rw [hc] at hplain
    cases hplain

/-- The text runs from outside to outside, other characters than printable ASCII inside strings. -/
def Balanced (s : List Char) : Prop := InStrings .outside s ∧ lex .outside s = .outside

theorem Balanced.append {s t : List Char} (hs : Balanced s) (ht : Balanced t) : Balanced (s ++ t) :=
  ⟨inStrings_append.mpr ⟨hs.1, hs.2.symm ▸ ht.1⟩, by rw [lex_append, hs.2, ht.2]⟩

theorem balanced_of_plain {s : List Char} (h : ∀ c ∈ s, isPlain c = true ∧ c ≠ '"') :
    Balanced s := by
  refine ⟨inStrings_of_plain fun c hc => (h c hc).1, ?_⟩
  have hlex := lex_outside_append (fun c hc => (h c hc).2) []
  rwa [List.append_nil] at hlex

theorem balanced_of_all {s : List Char}
    (h : (s.all fun c => isPlain c && decide (c ≠ '"')) = true) : Balanced s := by
  refine balanced_of_plain fun c hc => ?_
  have hc := List.all_eq_true.mp h c hc
  rwa [Bool.and_eq_true, decide_eq_true_eq] at hc

theorem Balanced.cons {c : Char} {s : List Char} (hc : isPlain c = true ∧ c ≠ '"')
    (h : Balanced s) : Balanced (c :: s) :=
  (balanced_of_plain (s := [c]) (List.forall_mem_singleton.mpr hc)).append h

theorem isPlain_hexDigit : ∀ n < 16, isPlain (hexDigit n) = true ∧ hexDigit n ≠ '"' ∧
    hexDigit n ≠ '\\' := by decide

/-- An escaped character stays inside, and only a character beyond ASCII stays itself without being
printable. -/
theorem inStrings_escapeChar (c : Char) :
    InStrings .inside (escapeChar c) ∧ lex .inside (escapeChar c) = .inside := by
  unfold escapeChar
  split_ifs with hquote hslash hnewline hreturn htab hfeed hback hcontrol
  all_goals try exact ⟨inStrings_of_plain (List.all_eq_true.mp rfl), rfl⟩
  · have hhigh := isPlain_hexDigit (c.toNat / 16) (by omega)
    have hlow := isPlain_hexDigit (c.toNat % 16) (by omega)
    refine ⟨inStrings_of_plain ?_, ?_⟩
    · simp only [List.forall_mem_cons, hhigh.1, hlow.1, List.not_mem_nil, false_implies,
        implies_true, and_true]
      decide
    · show lex .inside [hexDigit (c.toNat / 16), hexDigit (c.toNat % 16)] = _
      rw [lex_inside_cons hhigh.2.1 hhigh.2.2, lex_inside_cons hlow.2.1 hlow.2.2]
      rfl
  · exact ⟨⟨fun _ => rfl, trivial⟩, lex_inside_cons hquote hslash []⟩

theorem balanced_quoted (s : String) : Balanced (quoted s) := by
  have hescaped : ∀ cs : List Char, InStrings .inside (cs.flatMap escapeChar) ∧
      lex .inside (cs.flatMap escapeChar) = .inside := by
    intro cs
    induction cs with
    | nil => exact ⟨trivial, rfl⟩
    | cons c cs ih =>
      obtain ⟨hin, hlex⟩ := inStrings_escapeChar c
      rw [List.flatMap_cons, inStrings_append, lex_append, hlex]
      exact ⟨⟨hin, ih.1⟩, ih.2⟩
  obtain ⟨hin, hlex⟩ := hescaped s.toList
  unfold quoted
  refine ⟨⟨fun h => absurd h (by decide), ?_⟩, ?_⟩
  · show InStrings .inside _
    rw [inStrings_append, hlex]
    exact ⟨hin, fun h => absurd h (by decide), trivial⟩
  · show lex .inside _ = _
    rw [lex_append, hlex]
    rfl

theorem isPlain_of_isNumberChar {c : Char} (h : isNumberChar c = true) : isPlain c = true := by
  unfold isNumberChar at h
  rw [Bool.or_eq_true] at h
  rcases h with h | h
  · unfold isPlain
    have hdigit : 48 ≤ c.toNat ∧ c.toNat ≤ 57 := Char.isDigit_iff_toNat.mp h
    exact decide_eq_true (by omega)
  · simp only [List.contains_cons, List.contains_nil, Bool.or_false, Bool.or_eq_true,
      beq_iff_eq] at h
    rcases h with rfl | rfl | rfl | rfl | rfl <;> decide

/-- The characters of a printed number. -/
theorem isNumberChar_dumps {value : JsonValue} (hprintable : printable value = true)
    (hreadable : readable value = true) (hnumber : (∃ n, value = .int n) ∨ ∃ x, value = .float x) :
    ∀ c ∈ dumps value, isNumberChar c = true := by
  obtain ⟨token, hread, -⟩ : ∃ token, readToken (dumps value ++ []) = some (token, []) ∧
      numberValue token = some value :=
    readToken_number hprintable hreadable hnumber fun c hc => by cases hc
  obtain ⟨consumed, hconsumed, hchars⟩ := readToken_read hread
  rw [List.append_cancel_right hconsumed]
  exact hchars

theorem balanced_number {value : JsonValue} (hprintable : printable value = true)
    (hreadable : readable value = true) (hnumber : (∃ n, value = .int n) ∨ ∃ x, value = .float x) :
    Balanced (dumps value) :=
  balanced_of_plain fun c hc =>
    ⟨isPlain_of_isNumberChar (isNumberChar_dumps hprintable hreadable hnumber c hc),
      isNumberChar_ne (isNumberChar_dumps hprintable hreadable hnumber c hc)⟩

mutual

theorem balanced_dumps : ∀ value : JsonValue, printable value = true → readable value = true →
    Balanced (dumps value)
  | .null, _, _ => by
    rw [dumps]
    exact balanced_of_all rfl
  | .bool true, _, _ => by
    rw [dumps]
    exact balanced_of_all rfl
  | .bool false, _, _ => by
    rw [dumps]
    exact balanced_of_all rfl
  | .int n, hprintable, hreadable => balanced_number hprintable hreadable (.inl ⟨n, rfl⟩)
  | .float x, hprintable, hreadable => balanced_number hprintable hreadable (.inr ⟨x, rfl⟩)
  | .str s, _, _ => by
    rw [dumps]
    exact balanced_quoted s
  | .array [], _, _ => by
    rw [dumps]
    exact balanced_of_all rfl
  | .array (item :: items), hprintable, hreadable => by
    rw [printable, printableItems, Bool.and_eq_true] at hprintable
    rw [readable, readableItems, Bool.and_eq_true] at hreadable
    rw [dumps]
    exact ((balanced_dumps item hprintable.1 hreadable.1).append
      (balanced_dumpsItems items hprintable.2 hreadable.2)).cons (by decide)
  | .object [], _, _ => by
    rw [dumps]
    exact balanced_of_all rfl
  | .object ((name, value) :: members), hprintable, hreadable => by
    rw [printable, printableMembers, Bool.and_eq_true] at hprintable
    rw [readable, readableMembers, Bool.and_eq_true, Bool.and_eq_true] at hreadable
    have hvalue := balanced_dumps value hprintable.1 hreadable.2.1
    have hmembers := balanced_dumpsMembers members hprintable.2 hreadable.2.2
    rw [dumps]
    exact ((balanced_quoted name).append ((hvalue.append hmembers).cons (by decide))).cons
      (by decide)

theorem balanced_dumpsItems : ∀ items : List JsonValue, printableItems items = true →
    readableItems items = true → Balanced (dumpsItems items)
  | [], _, _ => by
    rw [dumpsItems]
    exact balanced_of_all rfl
  | item :: items, hprintable, hreadable => by
    rw [printableItems, Bool.and_eq_true] at hprintable
    rw [readableItems, Bool.and_eq_true] at hreadable
    rw [dumpsItems]
    exact ((balanced_dumps item hprintable.1 hreadable.1).append
      (balanced_dumpsItems items hprintable.2 hreadable.2)).cons (by decide)

theorem balanced_dumpsMembers :
    ∀ members : List (String × JsonValue), printableMembers members = true →
    readableMembers members = true → Balanced (dumpsMembers members)
  | [], _, _ => by
    rw [dumpsMembers]
    exact balanced_of_all rfl
  | (name, value) :: members, hprintable, hreadable => by
    rw [printableMembers, Bool.and_eq_true] at hprintable
    rw [readableMembers, Bool.and_eq_true] at hreadable
    have hvalue := balanced_dumps value hprintable.1 hreadable.1
    have hmembers := balanced_dumpsMembers members hprintable.2 hreadable.2
    rw [dumpsMembers]
    exact ((balanced_quoted name).append ((hvalue.append hmembers).cons (by decide))).cons
      (by decide)

end

mutual

/-- The strings and the names of a value. -/
def stringsOf : JsonValue → List String
  | .str value => [value]
  | .array items => stringsOfItems items
  | .object members => stringsOfMembers members
  | _ => []

def stringsOfItems : List JsonValue → List String
  | [] => []
  | item :: items => stringsOf item ++ stringsOfItems items

def stringsOfMembers : List (String × JsonValue) → List String
  | [] => []
  | (name, value) :: members => name :: (stringsOf value ++ stringsOfMembers members)

end

/-- A character stays itself, or is printed in ASCII. -/
theorem escapeChar_cases (d : Char) : (escapeChar d = [d] ∧ 32 ≤ d.toNat) ∨
    ((∀ e ∈ escapeChar d, isPlain e = true) ∧ d.toNat ≤ 126) := by
  unfold escapeChar
  split_ifs with hquote hslash hnewline hreturn htab hfeed hback hcontrol
  · exact .inr ⟨List.all_eq_true.mp rfl, hquote ▸ by decide⟩
  · exact .inr ⟨List.all_eq_true.mp rfl, hslash ▸ by decide⟩
  · exact .inr ⟨List.all_eq_true.mp rfl, hnewline ▸ by decide⟩
  · exact .inr ⟨List.all_eq_true.mp rfl, hreturn ▸ by decide⟩
  · exact .inr ⟨List.all_eq_true.mp rfl, htab ▸ by decide⟩
  · exact .inr ⟨List.all_eq_true.mp rfl, by omega⟩
  · exact .inr ⟨List.all_eq_true.mp rfl, by omega⟩
  · refine .inr ⟨?_, by omega⟩
    simp only [List.forall_mem_cons, (isPlain_hexDigit (d.toNat / 16) (by omega)).1,
      (isPlain_hexDigit (d.toNat % 16) (by omega)).1, List.not_mem_nil, false_implies, implies_true,
      and_true]
    decide
  · exact .inl ⟨rfl, not_lt.mp hcontrol⟩

theorem not_plain {c : Char} (hc : isPlain c = false) : c.toNat < 32 ∨ 126 < c.toNat := by
  have hrange := of_decide_eq_false hc
  omega

theorem mem_escapeChar {c d : Char} (hc : isPlain c = false) :
    c ∈ escapeChar d ↔ c = d ∧ 126 < c.toNat := by
  have hrange := not_plain hc
  rcases escapeChar_cases d with ⟨hsame, hd⟩ | ⟨hplain, hd⟩
  · rw [hsame, List.mem_singleton]
    constructor
    · rintro rfl
      exact ⟨rfl, by omega⟩
    · exact fun h => h.1
  · constructor
    · intro hmem
      rw [hplain c hmem] at hc
      cases hc
    · rintro ⟨rfl, hhigh⟩
      omega

/-- Characters that a text has only if one of the strings has them. -/
def PrintsOnly (s : List Char) (texts : List String) : Prop :=
  ∀ c, isPlain c = false → (c ∈ s ↔ 126 < c.toNat ∧ ∃ text ∈ texts, c ∈ text.toList)

theorem PrintsOnly.append {s t : List Char} {texts more : List String} (hs : PrintsOnly s texts)
    (ht : PrintsOnly t more) :
    PrintsOnly (s ++ t) (texts ++ more) := by
  intro c hc
  rw [List.mem_append, hs c hc, ht c hc, ← and_or_left]
  simp only [List.mem_append, or_and_right, exists_or]

theorem printsOnly_of_plain {s : List Char} (h : ∀ c ∈ s, isPlain c = true) : PrintsOnly s [] := by
  intro c hc
  constructor
  · intro hmem
    rw [h c hmem] at hc
    cases hc
  · rintro ⟨-, text, htext, -⟩
    cases htext

theorem PrintsOnly.cons {d : Char} {s : List Char} {texts : List String} (hd : isPlain d = true)
    (hs : PrintsOnly s texts) : PrintsOnly (d :: s) texts :=
  (printsOnly_of_plain (s := [d]) (List.forall_mem_singleton.mpr hd)).append hs

theorem printsOnly_quoted (text : String) : PrintsOnly (quoted text) [text] := by
  have hescaped : PrintsOnly (text.toList.flatMap escapeChar) [text] := by
    intro c hc
    simp only [List.mem_flatMap, mem_escapeChar hc, List.mem_singleton, exists_eq_left]
    constructor
    · rintro ⟨d, hd, rfl, hhigh⟩
      exact ⟨hhigh, hd⟩
    · exact fun h => ⟨c, h.2, rfl, h.1⟩
  have hend : PrintsOnly ['"'] [] := printsOnly_of_plain (List.all_eq_true.mp rfl)
  have hboth := hescaped.append hend
  rw [List.append_nil] at hboth
  exact hboth.cons (by decide)

theorem printsOnly_number {value : JsonValue} (hprintable : printable value = true)
    (hreadable : readable value = true) (hnumber : (∃ n, value = .int n) ∨ ∃ x, value = .float x) :
    PrintsOnly (dumps value) [] :=
  printsOnly_of_plain fun c hc =>
    isPlain_of_isNumberChar (isNumberChar_dumps hprintable hreadable hnumber c hc)

mutual

/-- A printed value has characters beyond ASCII only from its strings, and no control characters. -/
theorem printsOnly_dumps : ∀ value : JsonValue, printable value = true → readable value = true →
    PrintsOnly (dumps value) (stringsOf value)
  | .null, _, _ => by
    rw [dumps, stringsOf]
    · exact printsOnly_of_plain (List.all_eq_true.mp rfl)
    all_goals simp
  | .bool true, _, _ => by
    rw [dumps, stringsOf]
    · exact printsOnly_of_plain (List.all_eq_true.mp rfl)
    all_goals simp
  | .bool false, _, _ => by
    rw [dumps, stringsOf]
    · exact printsOnly_of_plain (List.all_eq_true.mp rfl)
    all_goals simp
  | .int n, hprintable, hreadable => by
    rw [stringsOf]
    · exact printsOnly_number hprintable hreadable (.inl ⟨n, rfl⟩)
    all_goals simp
  | .float x, hprintable, hreadable => by
    rw [stringsOf]
    · exact printsOnly_number hprintable hreadable (.inr ⟨x, rfl⟩)
    all_goals simp
  | .str s, _, _ => by
    rw [dumps, stringsOf]
    exact printsOnly_quoted s
  | .array [], _, _ => by
    rw [dumps, stringsOf, stringsOfItems]
    exact printsOnly_of_plain (List.all_eq_true.mp rfl)
  | .array (item :: items), hprintable, hreadable => by
    rw [printable, printableItems, Bool.and_eq_true] at hprintable
    rw [readable, readableItems, Bool.and_eq_true] at hreadable
    rw [dumps, stringsOf, stringsOfItems]
    exact ((printsOnly_dumps item hprintable.1 hreadable.1).append
      (printsOnly_dumpsItems items hprintable.2 hreadable.2)).cons (by decide)
  | .object [], _, _ => by
    rw [dumps, stringsOf, stringsOfMembers]
    exact printsOnly_of_plain (List.all_eq_true.mp rfl)
  | .object ((name, value) :: members), hprintable, hreadable => by
    rw [printable, printableMembers, Bool.and_eq_true] at hprintable
    rw [readable, readableMembers, Bool.and_eq_true, Bool.and_eq_true] at hreadable
    have hvalue := printsOnly_dumps value hprintable.1 hreadable.2.1
    have hmembers := printsOnly_dumpsMembers members hprintable.2 hreadable.2.2
    rw [dumps, stringsOf, stringsOfMembers]
    exact ((printsOnly_quoted name).append ((hvalue.append hmembers).cons (by decide))).cons
      (by decide)

theorem printsOnly_dumpsItems : ∀ items : List JsonValue, printableItems items = true →
    readableItems items = true → PrintsOnly (dumpsItems items) (stringsOfItems items)
  | [], _, _ => by
    rw [dumpsItems, stringsOfItems]
    exact printsOnly_of_plain (List.all_eq_true.mp rfl)
  | item :: items, hprintable, hreadable => by
    rw [printableItems, Bool.and_eq_true] at hprintable
    rw [readableItems, Bool.and_eq_true] at hreadable
    rw [dumpsItems, stringsOfItems]
    exact ((printsOnly_dumps item hprintable.1 hreadable.1).append
      (printsOnly_dumpsItems items hprintable.2 hreadable.2)).cons (by decide)

theorem printsOnly_dumpsMembers :
    ∀ members : List (String × JsonValue), printableMembers members = true →
    readableMembers members = true → PrintsOnly (dumpsMembers members) (stringsOfMembers members)
  | [], _, _ => by
    rw [dumpsMembers, stringsOfMembers]
    exact printsOnly_of_plain (List.all_eq_true.mp rfl)
  | (name, value) :: members, hprintable, hreadable => by
    rw [printableMembers, Bool.and_eq_true] at hprintable
    rw [readableMembers, Bool.and_eq_true] at hreadable
    have hvalue := printsOnly_dumps value hprintable.1 hreadable.1
    have hmembers := printsOnly_dumpsMembers members hprintable.2 hreadable.2
    rw [dumpsMembers, stringsOfMembers]
    exact ((printsOnly_quoted name).append ((hvalue.append hmembers).cons (by decide))).cons
      (by decide)

end

end ZhiyanRag.Retrieval
