import KubeCenter.Auth.LocalUsers
import KubeCenter.Core.GoScan

/-! Password hashes in the PHC format, and the credentials that they let in. -/

namespace KubeCenter.Auth

open KubeCenter.Core

/-- The parameters of an Argon2id hash, with the version of the algorithm. -/
structure Argon2Params where
  version : ℤ
  memory : ℕ
  time : ℕ
  threads : ℕ
  deriving DecidableEq

/-- `argon2.Version` and the constants of `local.go`. -/
def argon2Params : Argon2Params where
  version := 19
  memory := 65536
  time := 1
  threads := 4

def argon2KeyLen : ℕ := 32

def dollar : UInt8 := 36

/-- What the format of `encodePHC` makes of its operands. -/
def sprintPHC (p : Argon2Params) (b64Salt b64Hash : Bytes) : Bytes :=
  asciiBytes "$argon2id$v=" ++ (formatInt p.version ++ (asciiBytes "$m=" ++ (decimal p.memory ++ (asciiBytes ",t=" ++
    (decimal p.time ++ (asciiBytes ",p=" ++ (decimal p.threads ++ (asciiBytes "$" ++
      (b64Salt ++ dollar :: b64Hash)))))))))

/-- The string that holds a hash made with given parameters. -/
def encodeWith (p : Argon2Params) (salt hash : Bytes) : Bytes :=
  sprintPHC p (Base64.encodeRaw salt) (Base64.encodeRaw hash)

def encodePHC (salt hash : Bytes) : Bytes := encodeWith argon2Params salt hash

/-- The call of `Sscanf`. -/
def scanPHC (phc : Bytes) : Option (Argon2Params × Bytes) := do
  let s ← Scan.literal (asciiBytes "$argon2id$v=") phc
  let (version, s) ← Scan.int s
  let s ← Scan.literal (asciiBytes "$m=") s
  let (memory, s) ← Scan.uint32 s
  let s ← Scan.literal (asciiBytes ",t=") s
  let (time, s) ← Scan.uint32 s
  let s ← Scan.literal (asciiBytes ",p=") s
  let (threads, s) ← Scan.uint32 s
  let s ← Scan.literal (asciiBytes "$") s
  let b64Salt ← Scan.word s
  pure (⟨version, memory, time, threads⟩, b64Salt)

def splitLast (sep : UInt8) : Bytes → Option (Bytes × Bytes)
  | [] => none
  | c :: s =>
    match splitLast sep s with
    | some (a, b) => some (c :: a, b)
    | none => if c = sep then some ([], s) else none

inductive PHCError
  | format
  | missingHash
  | salt
  | hash
  deriving DecidableEq

def parsePHC (phc : Bytes) : Except PHCError (Bytes × Bytes) :=
  match scanPHC phc with
  | none => .error .format
  | some (_, b64) =>
    match splitLast dollar b64 with
    | none => .error .missingHash
    | some (b64Salt, b64Hash) =>
      match Base64.decodeRaw b64Salt, Base64.decodeRaw b64Hash with
      | none, _ => .error .salt
      | some _, none => .error .hash
      | some salt, some hash => .ok (salt, hash)

section Authenticate

-- Argon2id of a password and a salt, to so many bytes.
variable (argon2id : Argon2Params → Bytes → Bytes → ℕ → Bytes)

/-- Whether a password is let in for a stored string. -/
def verifyPHC (phc password : Bytes) : Bool :=
  match parsePHC phc with
  | .error _ => false
  | .ok (salt, hash) => argon2id argon2Params password salt argon2KeyLen = hash

inductive AuthError
  | cancelled
  | invalidCredentials

/-- `acquired` tells whether there was a slot to hash in before the context ended. -/
def authenticate (users : LocalUsers) (acquired : Bool) (username password : String) : Except AuthError User :=
  if acquired = false then .error .cancelled
  else match users.getByUsername username with
    | none => .error .invalidCredentials
    | some stored =>
      if verifyPHC argon2id (utf8 stored.passwordPHC.toList) (utf8 password.toList) then .ok stored.toUser
      else .error .invalidCredentials

end Authenticate

/-- What is encoded is parsed again; and of a string that is parsed, its salt and hash encoded with its own parameters
let the same passwords in, and these are the ones whose hash with those parameters is the one in the string. -/
structure PHCSound (phc : Bytes) : Prop where
  roundTrip : ∀ salt hash, parsePHC (encodePHC salt hash) = .ok (salt, hash)
  reencoded : ∀ p b64 salt hash, scanPHC phc = some (p, b64) → parsePHC phc = .ok (salt, hash) →
    ∀ argon2id password, verifyPHC argon2id (encodeWith p salt hash) password = verifyPHC argon2id phc password
  stored : ∀ p b64 salt hash, scanPHC phc = some (p, b64) → parsePHC phc = .ok (salt, hash) →
    ∀ argon2id password,
      verifyPHC argon2id phc password = decide (argon2id p password salt argon2KeyLen = hash)

/-! The round trip. -/

theorem splitLast_none {sep : UInt8} {s : Bytes} (h : sep ∉ s) : splitLast sep s = none := by
  induction s with
  | nil => rfl
  | cons c s ih =>
    obtain ⟨hne, hmem⟩ := not_or.mp (mt List.mem_cons.mpr h)
    rw [splitLast, ih hmem]
    exact if_neg (Ne.symm hne)

theorem splitLast_append {sep : UInt8} {b : Bytes} (h : sep ∉ b) (a : Bytes) :
    splitLast sep (a ++ sep :: b) = some (a, b) := by
  induction a with
  | nil =>
    rw [List.nil_append, splitLast, splitLast_none h]
    exact if_pos rfl
  | cons c a ih => rw [List.cons_append, splitLast, ih]

/-- A number ends where a text follows that does not start with a digit. -/
theorem not_digit_append {lit : Bytes} (h : (lit.head?.map isDigit) = some false) (rest : Bytes) :
    ∀ c ∈ (lit ++ rest).head?, isDigit c = false := by
  cases lit with
  | nil => cases h
  | cons d lit =>
    rintro c ⟨⟩
    exact Option.some.inj h

theorem scanPHC_sprintPHC {p : Argon2Params} (hversion : -2 ^ 63 ≤ p.version ∧ p.version < 2 ^ 63)
    (hmemory : p.memory < 4294967296) (htime : p.time < 4294967296) (hthreads : p.threads < 4294967296)
    {b64Salt b64Hash : Bytes} (hdark : ∀ c ∈ b64Salt ++ dollar :: b64Hash, Scan.Dark c) :
    scanPHC (sprintPHC p b64Salt b64Hash) = some (p, b64Salt ++ dollar :: b64Hash) := by
  have hne : b64Salt ++ dollar :: b64Hash ≠ [] := by simp
  have hm : ∀ rest, ∀ c ∈ (asciiBytes "$m=" ++ rest).head?, isDigit c = false := not_digit_append (by decide)
  have ht : ∀ rest, ∀ c ∈ (asciiBytes ",t=" ++ rest).head?, isDigit c = false := not_digit_append (by decide)
  have hp : ∀ rest, ∀ c ∈ (asciiBytes ",p=" ++ rest).head?, isDigit c = false := not_digit_append (by decide)
  have hsalt : ∀ rest, ∀ c ∈ (asciiBytes "$" ++ rest).head?, isDigit c = false := not_digit_append (by decide)
  unfold scanPHC sprintPHC
  simp only [Option.bind_eq_bind, Scan.literal_append, Option.bind_some, Option.pure_def,
    Scan.int_formatInt hversion.1 hversion.2 (hm _), Scan.uint32_decimal hmemory (ht _),
    Scan.uint32_decimal htime (hp _), Scan.uint32_decimal hthreads (hsalt _), Scan.word_dark hne hdark]

theorem dark_encodeRaw (salt hash : Bytes) :
    ∀ c ∈ Base64.encodeRaw salt ++ dollar :: Base64.encodeRaw hash, Scan.Dark c := by
  have hbase64 : ∀ s, ∀ c ∈ Base64.encodeRaw s, Scan.Dark c := fun s c hc ↦
    Scan.Dark.of_class (p := fun c ↦ (Base64.value c).isSome) (by decide) (Base64.value_of_mem_encodeRaw s c hc)
  intro c hc
  obtain hc | hc := List.mem_append.mp hc
  · exact hbase64 salt c hc
  · obtain rfl | hc := List.mem_cons.mp hc
    · decide
    · exact hbase64 hash c hc

/-- What is encoded with parameters that a string can hold is parsed again. -/
theorem parsePHC_encodeWith {p : Argon2Params} (hversion : -2 ^ 63 ≤ p.version ∧ p.version < 2 ^ 63)
    (hmemory : p.memory < 4294967296) (htime : p.time < 4294967296) (hthreads : p.threads < 4294967296)
    (salt hash : Bytes) : parsePHC (encodeWith p salt hash) = .ok (salt, hash) := by
  have hdollar : dollar ∉ Base64.encodeRaw hash := fun hmem ↦
    absurd (Base64.value_of_mem_encodeRaw hash dollar hmem) (by decide)
  rw [parsePHC, encodeWith, scanPHC_sprintPHC hversion hmemory htime hthreads (dark_encodeRaw salt hash)]
  dsimp only
  rw [splitLast_append hdollar]
  dsimp only
  rw [Base64.decodeRaw_encodeRaw, Base64.decodeRaw_encodeRaw]

theorem parsePHC_encodePHC (salt hash : Bytes) : parsePHC (encodePHC salt hash) = .ok (salt, hash) :=
  parsePHC_encodeWith (by decide) (by decide) (by decide) (by decide) salt hash

/-- The parameters of a string that is parsed are ones that a string can hold. -/
theorem scanPHC_range {phc b64 : Bytes} {p : Argon2Params} (h : scanPHC phc = some (p, b64)) :
    (-2 ^ 63 ≤ p.version ∧ p.version < 2 ^ 63) ∧ p.memory < 4294967296 ∧ p.time < 4294967296 ∧
      p.threads < 4294967296 := by
  simp only [scanPHC, Option.bind_eq_bind, Option.bind_eq_some_iff] at h
  obtain ⟨_, -, ⟨version, _⟩, hversion, _, -, ⟨memory, _⟩, hmemory, _, -, ⟨time, _⟩, htime, _, -, ⟨threads, _⟩,
    hthreads, _, -, _, -, ⟨⟩⟩ := h
  exact ⟨Scan.int_range hversion, Scan.uint32_lt hmemory, Scan.uint32_lt htime, Scan.uint32_lt hthreads⟩

theorem verifyPHC_of_parse {argon2id : Argon2Params → Bytes → Bytes → ℕ → Bytes} {phc salt hash : Bytes}
    (h : parsePHC phc = .ok (salt, hash)) (password : Bytes) :
    verifyPHC argon2id phc password = decide (argon2id argon2Params password salt argon2KeyLen = hash) := by
  rw [verifyPHC, h]

/-- A login succeeds for a stored user whose string lets the password in. -/
theorem authenticate_eq_ok {argon2id : Argon2Params → Bytes → Bytes → ℕ → Bytes} {users : LocalUsers}
    {username password : String} {user : User} : authenticate argon2id users true username password = .ok user ↔
      ∃ stored, users.getByUsername username = some stored ∧ stored.toUser = user ∧
        verifyPHC argon2id (utf8 stored.passwordPHC.toList) (utf8 password.toList) = true := by
  rw [authenticate, if_neg Bool.true_eq_false.mp]
  cases users.getByUsername username with
  | none => simp
  | some stored =>
    by_cases hverify : verifyPHC argon2id (utf8 stored.passwordPHC.toList) (utf8 password.toList) = true
    · simp [hverify]
    · simp [hverify]

/-- A stored password is verified as it should be exactly when the parameters in its string are the compiled-in ones. -/
theorem phcSound_iff (phc : Bytes) : PHCSound phc ↔
    ∀ p b64 salt hash, scanPHC phc = some (p, b64) → parsePHC phc = .ok (salt, hash) → p = argon2Params := by
  constructor
  · intro h p b64 salt hash hscan hparse
    -- A hash that only the compiled-in parameters make.
    let argon2id : Argon2Params → Bytes → Bytes → ℕ → Bytes := fun q _ _ _ ↦
      if q = argon2Params then hash else hash ++ [0]
    have hstored := h.stored p b64 salt hash hscan hparse argon2id []
    have hcompiled : argon2id argon2Params [] salt argon2KeyLen = hash := if_pos rfl
    rw [verifyPHC_of_parse hparse, hcompiled, decide_eq_true rfl, eq_comm, decide_eq_true_eq] at hstored
    by_contra hne
    rw [show argon2id p [] salt argon2KeyLen = hash ++ [0] from if_neg hne] at hstored
    exact absurd (congrArg List.length hstored) (by simp)
  · intro h
    refine ⟨parsePHC_encodePHC, fun p b64 salt hash hscan hparse argon2id password ↦ ?_,
      fun p b64 salt hash hscan hparse argon2id password ↦ ?_⟩
    · obtain ⟨hversion, hmemory, htime, hthreads⟩ := scanPHC_range hscan
      rw [verifyPHC_of_parse (parsePHC_encodeWith hversion hmemory htime hthreads salt hash), verifyPHC_of_parse hparse]
    · rw [verifyPHC_of_parse hparse, h p b64 salt hash hscan hparse]

/-- A hash made with three passes. -/
def threePasses : Bytes := asciiBytes "$argon2id$v=19$m=65536,t=3,p=4$c2FsdA$aGFzaA"

theorem not_phcSound : ¬∀ phc, PHCSound phc := by
  intro h
  have hscan : scanPHC threePasses = some (⟨19, 65536, 3, 4⟩, asciiBytes "c2FsdA$aGFzaA") := by decide
  have hparse : parsePHC threePasses = .ok (asciiBytes "salt", asciiBytes "hash") := by decide
  have hstored := (h threePasses).stored _ _ _ _ hscan hparse
    (fun q _ _ _ ↦ if q.time = 1 then asciiBytes "hash" else []) []
  rw [verifyPHC_of_parse hparse] at hstored
  exact absurd hstored (by decide)

end KubeCenter.Auth
