import AVBox.Protocol.Results

/-!
# Authentication

`RABService.authenticate` of `protocol/service.py`.  The token of a request is compared with the
tokens of the clients one after the other, by a function that raises on text that is not ASCII.
`authenticate_iff` says for which headers and clients this makes no difference.
-/

namespace AVBox

namespace RABService

/-! ## The service -/

structure RABClient where
  clientId : PyStr
  scopes : List PyStr
  deriving DecidableEq

/-- A member of `clients` in the credential file.  The token is empty if there is none. -/
structure Credential where
  token : PyStr
  client : RABClient
  deriving DecidableEq

/-- What leaves `authenticate` besides a client. -/
inductive AuthenticationError
  | protocol (error : RABProtocolError)
  | escaped (exc : Exc)
  deriving DecidableEq

/-- `text.isascii()`. -/
def isAscii (text : PyStr) : Bool := text.all fun c => c.val < 0x80

/-- `hmac.compare_digest`. -/
def compareDigest (a b : PyStr) : Except Exc Bool :=
  if isAscii a && isAscii b then .ok (decide (a = b))
  else .error ⟨.other, "TypeError", "comparing strings with non-ASCII characters is not supported"⟩

def missingCredential : RABProtocolError :=
  ⟨401, "AUTHENTICATION_REQUIRED", "a bearer credential is required"⟩

def invalidCredential : RABProtocolError :=
  ⟨401, "AUTHENTICATION_REQUIRED", "credential is invalid"⟩

def missingScope : RABProtocolError := ⟨403, "FORBIDDEN", "client lacks the required scope"⟩

def unavailableStore : RABProtocolError :=
  ⟨503, "STORAGE_UNAVAILABLE", "credential store is unavailable"⟩

/-- A client whose token matched. -/
def authorize (requiredScope : PyStr) (client : RABClient) : Except RABProtocolError RABClient :=
  if requiredScope ∈ client.scopes then .ok client else .error missingScope

/-- The loop over the clients. -/
def searchClient (supplied requiredScope : PyStr) :
    List Credential → Except AuthenticationError RABClient
  | [] => .error (.protocol invalidCredential)
  | value :: clients =>
      if value.token = [] then searchClient supplied requiredScope clients
      else match compareDigest supplied value.token with
        | .error exc => .error (.escaped exc)
        | .ok true => (authorize requiredScope value.client).mapError .protocol
        | .ok false => searchClient supplied requiredScope clients

/-- The text behind `"Bearer "`. -/
def bearerToken (authorization : Option PyStr) : Option PyStr :=
  authorization.bind fun header =>
    if (PyStr.ofString "Bearer ").isPrefixOf header then some (header.drop 7) else none

/-- `authenticate`.  `store` is what reading the credential file comes to. -/
def authenticate (store : Except Exc (List Credential)) (authorization : Option PyStr)
    (requiredScope : PyStr) : Except AuthenticationError RABClient :=
  match bearerToken authorization with
  | none => .error (.protocol missingCredential)
  | some supplied =>
      match store with
      | .ok clients => searchClient supplied requiredScope clients
      | .error exc =>
          if exc.family ∈ [.osError, .valueError] then .error (.protocol unavailableStore)
          else .error (.escaped exc)

/-! ## What it is to do -/

/-- The entry has the token. -/
def HasToken (supplied : PyStr) (value : Credential) : Prop :=
  value.token ≠ [] ∧ value.token = supplied

instance (supplied : PyStr) : DecidablePred (HasToken supplied) :=
  fun _ => inferInstanceAs (Decidable (_ ∧ _))

/-- The first client with the token, if its scopes allow it, or a status. -/
def searched (supplied requiredScope : PyStr) (clients : List Credential) : Except ℕ RABClient :=
  match clients.find? fun value => decide (HasToken supplied value) with
  | none => .error 401
  | some value => if requiredScope ∈ value.client.scopes then .ok value.client else .error 403

/-- The client of a request, or a status. -/
def authenticated (clients : List Credential) (authorization : Option PyStr)
    (requiredScope : PyStr) : Except ℕ RABClient :=
  match bearerToken authorization with
  | none => .error 401
  | some supplied => searched supplied requiredScope clients

/-- The status of an error of the protocol. -/
def AuthenticationError.status? : AuthenticationError → Option ℕ
  | .protocol error => some error.status
  | .escaped _ => none

/-- The service answers with the client or the status that it should. -/
def Authenticates (clients : List Credential) (authorization : Option PyStr)
    (requiredScope : PyStr) : Prop :=
  (authenticate (.ok clients) authorization requiredScope).mapError AuthenticationError.status? =
    (authenticated clients authorization requiredScope).mapError some

/-- No comparison raises: no client has a token, or the one supplied is ASCII, and so are the tokens
before the one that is the same. -/
def Comparable (supplied : PyStr) (clients : List Credential) : Prop :=
  (∀ value ∈ clients, value.token = []) ∨
    isAscii supplied ∧
      ∀ value ∈ clients.takeWhile (fun value => decide ¬HasToken supplied value),
        isAscii value.token

variable {supplied requiredScope : PyStr} {clients : List Credential}

lemma compareDigest_of_ascii {a b : PyStr} (ha : isAscii a) (hb : isAscii b) :
    compareDigest a b = .ok (decide (a = b)) := by
  rw [compareDigest, ha, hb]
  rfl

lemma compareDigest_of_not {a b : PyStr} (h : ¬(isAscii a ∧ isAscii b)) :
    ∃ exc, compareDigest a b = .error exc := by
  rw [← Bool.and_eq_true, Bool.not_eq_true] at h
  rw [compareDigest, h]
  exact ⟨_, rfl⟩

/-! ## The loop -/

lemma takeWhile_of_hasToken {value : Credential} (h : HasToken supplied value) :
    (value :: clients).takeWhile (fun value => decide ¬HasToken supplied value) = [] :=
  List.takeWhile_cons_of_neg (by simp [h])

lemma takeWhile_of_not_hasToken {value : Credential} (h : ¬HasToken supplied value) :
    (value :: clients).takeWhile (fun value => decide ¬HasToken supplied value) =
      value :: clients.takeWhile fun value => decide ¬HasToken supplied value :=
  List.takeWhile_cons_of_pos (by simp [h])

lemma comparable_of_empty {value : Credential} (hempty : value.token = []) :
    Comparable supplied (value :: clients) ↔ Comparable supplied clients := by
  have hnot : ¬HasToken supplied value := fun h => h.1 hempty
  have hascii : isAscii value.token := by rw [hempty]; rfl
  rw [Comparable, Comparable, takeWhile_of_not_hasToken hnot, List.forall_mem_cons,
    List.forall_mem_cons, and_iff_right hempty, and_iff_right hascii]

/-- An entry with a token has to be comparable itself, and decides if it is the one supplied. -/
lemma comparable_of_token {value : Credential} (htoken : value.token ≠ []) :
    Comparable supplied (value :: clients) ↔
      isAscii supplied ∧ isAscii value.token ∧
        (value.token ≠ supplied → Comparable supplied clients) := by
  have hsome : ¬∀ other ∈ value :: clients, other.token = [] :=
    fun h => htoken (h value List.mem_cons_self)
  rw [Comparable, or_iff_right hsome]
  by_cases hsame : value.token = supplied
  · rw [takeWhile_of_hasToken ⟨htoken, hsame⟩]
    constructor
    · exact fun h => ⟨h.1, hsame ▸ h.1, fun hne => absurd hsame hne⟩
    · exact fun h => ⟨h.1, fun other hother => absurd hother List.not_mem_nil⟩
  · rw [takeWhile_of_not_hasToken fun h => hsame h.2, List.forall_mem_cons]
    constructor
    · exact fun ⟨hsupplied, hvalue, hrest⟩ => ⟨hsupplied, hvalue, fun _ => .inr ⟨hsupplied, hrest⟩⟩
    · rintro ⟨hsupplied, hvalue, hrest⟩
      refine ⟨hsupplied, hvalue, fun other hother => ?_⟩
      rcases hrest hsame with hempty | ⟨-, hascii⟩
      · rw [hempty other ((List.takeWhile_sublist _).subset hother)]
        rfl
      · exact hascii other hother

lemma searched_of_not {value : Credential} (h : ¬HasToken supplied value) :
    searched supplied requiredScope (value :: clients) =
      searched supplied requiredScope clients := by
  rw [searched, List.find?_cons_of_neg (by simp [h])]
  rfl

lemma searched_of_hasToken {value : Credential} (h : HasToken supplied value) :
    (searched supplied requiredScope (value :: clients)).mapError some =
      ((authorize requiredScope value.client).mapError .protocol).mapError
        AuthenticationError.status? := by
  rw [searched, List.find?_cons_of_pos (by simp [h])]
  dsimp only
  rw [authorize]
  split <;> rfl

/-- By induction on the clients: the loop does what it should if no comparison raises. -/
lemma searchClient_iff :
    (searchClient supplied requiredScope clients).mapError AuthenticationError.status? =
        (searched supplied requiredScope clients).mapError some ↔
      Comparable supplied clients := by
  induction clients with
  | nil => exact iff_of_true rfl (.inl fun value hvalue => absurd hvalue List.not_mem_nil)
  | cons value clients ih =>
      rw [searchClient]
      split
      next hempty =>
        rw [searched_of_not fun h => h.1 hempty, ih, comparable_of_empty hempty]
      next htoken =>
        rw [comparable_of_token htoken]
        by_cases hascii : isAscii supplied ∧ isAscii value.token
        · rw [compareDigest_of_ascii hascii.1 hascii.2, and_iff_right hascii.1,
            and_iff_right hascii.2]
          by_cases hsame : supplied = value.token
          · rw [decide_eq_true hsame]
            exact iff_of_true (searched_of_hasToken ⟨htoken, hsame.symm⟩).symm
              fun hne => absurd hsame.symm hne
          · rw [decide_eq_false hsame, searched_of_not fun h => hsame h.2.symm,
              imp_iff_right (Ne.symm hsame)]
            exact ih
        · obtain ⟨exc, hexc⟩ := compareDigest_of_not hascii
          rw [hexc]
          refine iff_of_false (fun h => ?_) fun h => hascii ⟨h.1, h.2.1⟩
          cases hsearched : searched supplied requiredScope (value :: clients) with
          | ok client => rw [hsearched] at h; cases h
          | error status => rw [hsearched] at h; cases h

/-! ## The service -/

/-- The service answers as it should exactly if there is no bearer token to look for, or no
comparison on the way to the client raises. -/
theorem authenticate_iff (clients : List Credential) (authorization : Option PyStr)
    (requiredScope : PyStr) :
    Authenticates clients authorization requiredScope ↔
      ∀ supplied, bearerToken authorization = some supplied → Comparable supplied clients := by
  rw [Authenticates, authenticate, authenticated]
  cases hbearer : bearerToken authorization with
  | none => exact iff_of_true rfl fun supplied h => by cases h
  | some supplied =>
      refine searchClient_iff.trans ⟨fun h other hother => ?_, fun h => h supplied rfl⟩
      obtain rfl := Option.some.inj hother
      exact h

/-- A client with a token that is not ASCII, and one behind it. -/
def accentedClients : List Credential :=
  [⟨PyStr.ofString "clé", ⟨PyStr.ofString "first", []⟩⟩,
    ⟨PyStr.ofString "token", ⟨PyStr.ofString "second", [PyStr.ofString "analysis.submit"]⟩⟩]

theorem accented_token_locks_out :
    ¬Authenticates accentedClients (some (PyStr.ofString "Bearer token"))
      (PyStr.ofString "analysis.submit") := by
  have hraises : authenticate (.ok accentedClients) (some (PyStr.ofString "Bearer token"))
      (PyStr.ofString "analysis.submit") = .error (.escaped ⟨.other, "TypeError",
        "comparing strings with non-ASCII characters is not supported"⟩) := by decide +kernel
  have howed : authenticated accentedClients (some (PyStr.ofString "Bearer token"))
      (PyStr.ofString "analysis.submit") =
        .ok ⟨PyStr.ofString "second", [PyStr.ofString "analysis.submit"]⟩ := by decide +kernel
  rw [Authenticates, hraises, howed]
  exact fun h => by cases h

end RABService

end AVBox
