import Mathlib.Data.List.Forall2

/-!
# Identifiers, times and errors

The scalar types that every part of the repository shares: contract identifiers, SHA-256 digests and
object keys are strings accepted by a fixed pattern, a stored timestamp is an instant (microseconds
since an epoch, `TIMESTAMPTZ`), and a raised Python exception is a `PyError`: its class and its
text.
-/

namespace ZhiyanRag

/-- The exception classes the modelled code raises or distinguishes; the last six are PostgreSQL's.
-/
inductive ErrorKind
  | valueError
  | validationError
  | overflowError
  | identityConflictError
  | concurrentLifecycleUpdateError
  | lifecycleTransitionError
  | postgresFactSourceError
  | pdfIngestionError
  | pdfObjectStoreError
  | runtimeSnapshotPersistenceError
  | indexLifecycleError
  | indexNotReadyError
  | inactivationCleanupPendingError
  | cleanupWorkerError
  | onlineScopeForbiddenError
  | onlineVisibilityUnavailableError
  | operationalError
  | checkViolation
  | uniqueViolation
  | foreignKeyViolation
  | serializationFailure
  | numericValueOutOfRange
  | dataError
  | typeError
  | lookupError
  deriving DecidableEq

/-- A raised exception. -/
structure PyError where
  kind : ErrorKind
  message : String
  deriving DecidableEq

abbrev Timestamp := Int

/-- A Python `datetime`: an instant, and whether it carries a UTC offset. -/
structure Datetime where
  instant : Timestamp
  hasOffset : Bool
  deriving DecidableEq

/-- `datetime.max` in UTC, in microseconds since the Unix epoch. -/
def datetimeMax : Timestamp := 253402300799999999

/-- The largest value of a PostgreSQL `INTEGER` column. -/
def integerMax : Int := 2147483647

/-! ### Patterns -/

/-- The UTF-8 bytes of a string. The patterns below admit ASCII characters only, so they are matched
byte by byte. -/
def utf8Bytes (s : String) : List Nat := s.toByteArray.data.toList.map (·.toNat)

def isDigit (b : Nat) : Bool := 48 ≤ b && b ≤ 57

def isLower (b : Nat) : Bool := 97 ≤ b && b ≤ 122

def isUpper (b : Nat) : Bool := 65 ≤ b && b ≤ 90

/-- `[A-Za-z0-9]`. -/
def isIdStart (b : Nat) : Bool := isLower b || isDigit b || isUpper b

/-- `[A-Za-z0-9._:-]`. -/
def isIdChar (b : Nat) : Bool := isIdStart b || b == 95 || b == 46 || b == 58 || b == 45

/-- `^[A-Za-z0-9][A-Za-z0-9._:-]{0,127}$`. -/
def contractIdPattern (s : String) : Bool :=
  match utf8Bytes s with
  | [] => false
  | b :: bs => isIdStart b && decide (bs.length ≤ 127) && bs.all isIdChar

/-- `[a-f0-9]`. -/
def isLowerHex (b : Nat) : Bool := isDigit b || (97 ≤ b && b ≤ 102)

/-- `^[a-f0-9]{64}$`. -/
def sha256Pattern (s : String) : Bool :=
  let bs := utf8Bytes s
  decide (bs.length = 64) && bs.all isLowerHex

/-- `[a-z0-9]`. -/
def isKeyStart (b : Nat) : Bool := isLower b || isDigit b

/-- `^[a-z0-9][-a-z0-9._/]*$`, at most 512 characters. -/
def objectKeyPattern (s : String) : Bool :=
  match utf8Bytes s with
  | [] => false
  | b :: bs => isKeyStart b && decide (bs.length ≤ 511) &&
      bs.all fun c => isKeyStart c || c == 46 || c == 95 || c == 47 || c == 45

/-- Unicode `White_Space`, what a stripped string constraint removes at both ends. -/
def isWhiteSpace (c : Char) : Bool :=
  let n := c.toNat
  (9 ≤ n && n ≤ 13) || n == 0x20 || n == 0x85 || n == 0xA0 || n == 0x1680 ||
    (0x2000 ≤ n && n ≤ 0x200A) || n == 0x2028 || n == 0x2029 || n == 0x202F || n == 0x205F ||
    n == 0x3000

/-- `str.isspace` of one character, and `\s` of a pattern: Unicode white space and the four ASCII
separators. -/
def isPySpace (c : Char) : Bool := isWhiteSpace c || (0x1C ≤ c.toNat && c.toNat ≤ 0x1F)

/-- `str.strip()` of a string constraint; a string without white space at its ends stays itself. -/
def stripWhitespace (s : String) : String :=
  if s.toList.head?.any isWhiteSpace || s.toList.getLast?.any isWhiteSpace then
    String.ofList ((s.toList.dropWhile isWhiteSpace).reverse.dropWhile isWhiteSpace).reverse
  else s

/-- The `ContractId` string type: strip, then match the pattern. -/
def coerceContractId (field value : String) : Except PyError String :=
  if contractIdPattern (stripWhitespace value) then .ok (stripWhitespace value)
  else .error ⟨.validationError, field⟩

/-- A generated identifier: `id_factory` yields a prefix, an underscore and 32 hex digits. -/
abbrev ContractId := { s : String // contractIdPattern s = true }

/-- The generated identifier with this text, for runs on fixed inputs. -/
def fixedId (s : String) : ContractId :=
  if h : contractIdPattern s = true then ⟨s, h⟩ else ⟨"unused", by decide⟩

theorem coerceContractId_pattern {field value id : String}
    (h : coerceContractId field value = .ok id) : contractIdPattern id = true := by
  unfold coerceContractId at h
  split at h
  · rename_i hp
    cases h
    exact hp
  · cases h

/-- PostgreSQL stores no NUL character in a `TEXT` value. -/
def storableText (s : String) : Bool := (utf8Bytes s).all (· != 0)

/-! ### Checks -/

/-- Go on if the condition holds, raise otherwise. -/
def ensure (condition : Bool) (kind : ErrorKind) (message : String) : Except PyError Unit :=
  if condition then .ok () else .error ⟨kind, message⟩

@[simp] theorem ensure_eq_ok {condition : Bool} {kind : ErrorKind} {message : String} {u : Unit} :
    ensure condition kind message = .ok u ↔ condition = true := by
  unfold ensure
  split <;> simp_all

/-- A sequence of two computations succeeds exactly when both do. -/
theorem bind_eq_ok {α β ε : Type} {x : Except ε α} {f : α → Except ε β} {b : β} :
    (x >>= f) = .ok b ↔ ∃ a, x = .ok a ∧ f a = .ok b := by
  cases x <;> simp [bind, Except.bind]

theorem pure_eq_ok {α ε : Type} {a b : α} : (pure a : Except ε α) = .ok b ↔ a = b := by
  simp [pure, Except.pure]

/-- A check comes first: it passes and the rest succeeds. -/
theorem check_bind {α ε : Type} {x : Except ε Unit} {f : Unit → Except ε α} {b : α} :
    (x >>= f) = .ok b ↔ x = .ok () ∧ f () = .ok b := by
  rw [bind_eq_ok]
  constructor
  · rintro ⟨⟨⟩, hx, hf⟩
    exact ⟨hx, hf⟩
  · rintro ⟨hx, hf⟩
    exact ⟨(), hx, hf⟩

theorem ensure_bind {α : Type} {condition : Bool} {kind : ErrorKind} {message : String}
    {f : Unit → Except PyError α} {b : α} :
    (ensure condition kind message >>= f) = .ok b ↔ condition = true ∧ f () = .ok b := by
  rw [check_bind, ensure_eq_ok]

theorem ensure_true_bind {α : Type} {condition : Bool} (h : condition = true) {kind : ErrorKind}
    {message : String} {f : Unit → Except PyError α} :
    (ensure condition kind message >>= f) = f () := by
  rw [h]
  rfl

theorem ensure_eq_error {condition : Bool} {kind : ErrorKind} {message : String} {e : PyError} :
    ensure condition kind message = .error e ↔ condition = false ∧ e = ⟨kind, message⟩ := by
  unfold ensure
  cases condition <;> simp [eq_comm]

/-- A sequence of two computations fails exactly when the first does, or the second does after it.
-/
theorem bind_eq_error {α β ε : Type} {x : Except ε α} {f : α → Except ε β} {e : ε} :
    (x >>= f) = .error e ↔ x = .error e ∨ ∃ a, x = .ok a ∧ f a = .error e := by
  cases x <;> simp [bind, Except.bind]

theorem mapError_eq_ok {α ε δ : Type} {x : Except ε α} {f : ε → δ} {a : α} :
    x.mapError f = .ok a ↔ x = .ok a := by
  cases x <;> simp [Except.mapError]

theorem map_eq_ok {α β ε : Type} {x : Except ε α} {f : α → β} {b : β} :
    x.map f = .ok b ↔ ∃ a, x = .ok a ∧ f a = b := by
  cases x <;> simp [Except.map]

theorem mapError_eq_error {α ε δ : Type} {x : Except ε α} {f : ε → δ} {d : δ} :
    x.mapError f = .error d ↔ ∃ e, x = .error e ∧ f e = d := by
  cases x <;> simp [Except.mapError]

/-- A loop of checks passes exactly when every check does. -/
theorem forM_eq_ok {α ε : Type} {f : α → Except ε Unit} {xs : List α} :
    xs.forM f = .ok () ↔ ∀ x ∈ xs, f x = .ok () := by
  induction xs with
  | nil => simp [List.forM, pure_eq_ok]
  | cons x xs ih =>
    rw [List.forM, check_bind, ih, List.forall_mem_cons]

/-- A mapped computation succeeds exactly when it does on every element. -/
theorem mapM_eq_ok {α β ε : Type} {f : α → Except ε β} {xs : List α} {ys : List β} :
    xs.mapM f = .ok ys ↔ List.Forall₂ (fun x y => f x = .ok y) xs ys := by
  induction xs generalizing ys with
  | nil =>
    rw [List.mapM_nil, pure_eq_ok, List.forall₂_nil_left_iff]
    exact eq_comm
  | cons x xs ih =>
    rw [List.mapM_cons, bind_eq_ok]
    simp only [bind_eq_ok, pure_eq_ok]
    constructor
    · rintro ⟨y, hy, ys', hys, rfl⟩
      exact .cons hy (ih.mp hys)
    · intro h
      cases h with
      | cons hy hys => exact ⟨_, hy, _, ih.mpr hys, rfl⟩

/-- The results of a mapped computation stand where their elements do. -/
theorem mapM_getElem? {α β ε : Type} {f : α → Except ε β} {xs : List α} {ys : List β}
    (h : xs.mapM f = .ok ys) (i : Nat) : xs[i]?.map f = ys[i]?.map .ok := by
  induction mapM_eq_ok.mp h generalizing i with
  | nil => rfl
  | cons hfirst hrest ih =>
    cases i with
    | zero => exact congrArg some hfirst
    | succ i => exact ih (mapM_eq_ok.mpr hrest) i

theorem exists_mapM_ok {α β ε : Type} {f : α → Except ε β} {xs : List α}
    (h : ∀ x ∈ xs, ∃ y, f x = .ok y) : ∃ ys, xs.mapM f = .ok ys := by
  induction xs with
  | nil => exact ⟨[], rfl⟩
  | cons x xs ih =>
    obtain ⟨⟨y, hy⟩, hrest⟩ := List.forall_mem_cons.mp h
    obtain ⟨ys, hys⟩ := ih hrest
    exact ⟨y :: ys, mapM_eq_ok.mpr (.cons hy (mapM_eq_ok.mp hys))⟩

/-- Every result of a mapped computation comes from an element. -/
theorem exists_of_mapM_ok {α β ε : Type} {f : α → Except ε β} {xs : List α} {ys : List β}
    (h : xs.mapM f = .ok ys) {y : β} (hy : y ∈ ys) : ∃ x ∈ xs, f x = .ok y := by
  induction mapM_eq_ok.mp h with
  | nil => cases hy
  | cons hx hxs ih =>
    rcases List.mem_cons.mp hy with rfl | hy
    · exact ⟨_, List.mem_cons_self, hx⟩
    · obtain ⟨x, hmem, hx'⟩ := ih (mapM_eq_ok.mpr hxs) hy
      exact ⟨x, List.mem_cons_of_mem _ hmem, hx'⟩

/-- What every step of a fold keeps, the fold keeps. -/
theorem foldlM_invariant {α β ε : Type} {f : β → α → Except ε β} {I : β → Prop} {xs : List α}
    {b b' : β} (hstep : ∀ b x b', x ∈ xs → I b → f b x = .ok b' → I b') (hb : I b)
    (h : xs.foldlM f b = .ok b') : I b' := by
  induction xs generalizing b with
  | nil =>
    cases pure_eq_ok.mp h
    exact hb
  | cons x xs ih =>
    rw [List.foldlM_cons] at h
    obtain ⟨b₁, hx, hrest⟩ := bind_eq_ok.mp h
    exact ih (fun b y b' hy => hstep b y b' (List.mem_cons_of_mem _ hy))
      (hstep b x b₁ List.mem_cons_self hb hx) hrest

end ZhiyanRag
