import AVBox.Models.Common
import Mathlib.Data.List.TakeWhile

/-!
# The endpoint of the correlation service

`require_trusted_endpoint` of `config/settings.py` looks at the first characters of the endpoint,
and the bearer token goes to the host that a parser finds in the URL.  `trusted_iff` says for which
accepted endpoints that is this machine or a server behind TLS.
-/

namespace AVBox

open PyStr

namespace Url

/-! ## The parts of a URL -/

/-- The characters that end the authority. -/
def isDelimiter (c : Fin 0x110000) : Bool := c.val = 0x2F || c.val = 0x3F || c.val = 0x23

/-- The scheme, and what follows its colon. -/
def splitScheme (url : PyStr) : Option (PyStr × PyStr) :=
  let scheme := url.takeWhile fun c => !(isDelimiter c || c.val = 0x3A)
  let rest := url.drop scheme.length
  if scheme ≠ [] ∧ rest.head? = some 0x3A then some (scheme, rest.drop 1) else none

/-- The authority, behind two slashes. -/
def authorityOf (rest : PyStr) : Option PyStr :=
  if (ofString "//").isPrefixOf rest then some ((rest.drop 2).takeWhile fun c => !isDelimiter c)
  else none

/-- What follows the user information. -/
def hostPort (authority : PyStr) : PyStr := (authority.reverse.takeWhile (· ≠ 0x40)).reverse

/-- The host of an authority: up to its closing bracket, or up to the port. -/
def hostOf (authority : PyStr) : PyStr :=
  let info := hostPort authority
  if info.head? = some 0x5B then info.takeWhile (· ≠ 0x5D) ++ [0x5D] else info.takeWhile (· ≠ 0x3A)

/-- The scheme of a URL. -/
def scheme? (url : PyStr) : Option PyStr := (splitScheme url).map Prod.fst

/-- The host of a URL. -/
def host? (url : PyStr) : Option PyStr :=
  ((splitScheme url).bind fun parts => authorityOf parts.2).map hostOf

/-- The scheme is `https`, or it is `http` and the host is this machine. -/
def Trusted (url : PyStr) : Prop :=
  scheme? url = some (ofString "https") ∨
    scheme? url = some (ofString "http") ∧ host? url = some (ofString "127.0.0.1")

instance (url : PyStr) : Decidable (Trusted url) := inferInstanceAs (Decidable (_ ∨ _))

/-! ## Parsing what has been put together -/

lemma splitScheme_append {scheme : PyStr} (hne : scheme ≠ [])
    (h : scheme.all fun c => !(isDelimiter c || c.val = 0x3A)) (rest : PyStr) :
    splitScheme (scheme ++ 0x3A :: rest) = some (scheme, rest) := by
  have htake : (scheme ++ 0x3A :: rest).takeWhile (fun c => !(isDelimiter c || c.val = 0x3A)) =
      scheme := by
    rw [List.takeWhile_append_of_pos (List.all_eq_true.1 h), List.takeWhile_cons_of_neg (by decide),
      List.append_nil]
  rw [splitScheme]
  simp only [htake, List.drop_left]
  rw [if_pos ⟨hne, rfl⟩]
  rfl

lemma authorityOf_append (text : PyStr) :
    authorityOf (ofString "//" ++ text) = some (text.takeWhile fun c => !isDelimiter c) := by
  rw [authorityOf, if_pos (by rw [List.isPrefixOf_iff_prefix]; exact List.prefix_append _ _)]
  rfl

lemma hostPort_append {tail : PyStr} (h : 0x40 ∈ tail) (first : PyStr) :
    hostPort (first ++ tail) = hostPort tail := by
  have hstops : (tail.reverse.takeWhile (· ≠ 0x40)).length ≠ tail.reverse.length := by
    intro hall
    have heq := (List.takeWhile_prefix _).eq_of_length hall
    have hmem : (0x40 : Fin 0x110000) ∈ tail.reverse.takeWhile (· ≠ 0x40) := by
      rw [heq]
      exact List.mem_reverse.2 h
    exact absurd (List.mem_takeWhile_imp hmem) (by decide)
  rw [hostPort, List.reverse_append, List.takeWhile_append, if_neg hstops, hostPort]

lemma hostPort_of_not_mem {authority : PyStr} (h : 0x40 ∉ authority) :
    hostPort authority = authority := by
  have hall : ∀ c ∈ authority.reverse, decide (c ≠ 0x40) := fun c hc =>
    decide_eq_true fun heq => h (heq ▸ List.mem_reverse.1 hc)
  rw [hostPort, List.takeWhile_eq_self_iff.2 hall, List.reverse_reverse]

/-- An address in brackets is not the address of this machine. -/
lemma hostOf_eq_local_iff {authority : PyStr} :
    hostOf authority = ofString "127.0.0.1" ↔
      (hostPort authority).takeWhile (· ≠ 0x3A) = ofString "127.0.0.1" := by
  show (if (hostPort authority).head? = some 0x5B then _ else _) = _ ↔ _
  split
  next hbracket =>
    refine iff_of_false (fun h => ?_) fun h => ?_
    · have hlast := congrArg List.getLast? h
      rw [List.getLast?_concat] at hlast
      exact absurd hlast (by decide +kernel)
    · obtain ⟨rest, hrest⟩ := List.head?_eq_some_iff.1 hbracket
      rw [hrest, List.takeWhile_cons_of_pos (by decide)] at h
      have hhead : some (0x5B : Fin 0x110000) = (ofString "127.0.0.1").head? :=
        congrArg List.head? h
      exact absurd hhead (by decide +kernel)
  next => rfl

end Url

namespace HTTPRabCorrelationProvider

/-! ## The settings -/

/-- What `require_trusted_endpoint` reads of the `RABCorrelationSettings`. -/
structure EndpointSettings where
  enabled : Bool
  endpoint : Option PyStr
  credentialFile : Option PyStr
  deriving DecidableEq

/-- `require_trusted_endpoint`. -/
def requireTrustedEndpoint (settings : EndpointSettings) : Except Exc EndpointSettings :=
  if settings.enabled then
    let endpoint := settings.endpoint.getD []
    if endpoint = [] ∨ ¬((ofString "https://").isPrefixOf endpoint ∨
        (ofString "http://127.0.0.1").isPrefixOf endpoint) then
      .error (.value "enabled RAB correlation requires configured HTTPS endpoint")
    else if settings.credentialFile = none then
      .error (.value "enabled RAB correlation requires credential_file")
    else .ok settings
  else .ok settings

/-- The URL that `correlate` posts to. -/
def correlateUrl (endpoint : PyStr) : PyStr :=
  rstripOf (·.val = 0x2F) endpoint ++ ofString "/v1/correlate"

/-! ## The condition -/

/-- What follows `http://127.0.0.1` in the endpoint leaves the host as it is: nothing more of the
authority, a port, or user information with the same address behind it. -/
def KeepsHost (rest : PyStr) : Prop :=
  let tail := rest.takeWhile fun c => !Url.isDelimiter c
  0x40 ∈ tail ∧ (Url.hostPort tail).takeWhile (· ≠ 0x3A) = ofString "127.0.0.1" ∨
    0x40 ∉ tail ∧ (tail = [] ∨ tail.head? = some 0x3A)

instance (rest : PyStr) : Decidable (KeepsHost rest) := inferInstanceAs (Decidable (_ ∨ _))

lemma rstripOf_append (kind : Fin 0x110000 → Bool) (first : PyStr) {last : Fin 0x110000}
    (h : kind last = false) (rest : PyStr) :
    rstripOf kind (first ++ [last] ++ rest) = first ++ [last] ++ rstripOf kind rest := by
  rw [rstripOf, List.reverse_append, List.dropWhile_append, rstripOf]
  split
  next hempty =>
    rw [List.isEmpty_iff.1 hempty, List.reverse_nil, List.append_nil, List.reverse_append,
      List.reverse_singleton, List.singleton_append, List.dropWhile_cons_of_neg (by simp [h]),
      List.reverse_cons, List.reverse_reverse]
  next => rw [List.reverse_append, List.reverse_reverse]

/-- What is stripped and what is added lies behind the authority. -/
lemma takeWhile_rstripOf {kind accepts : Fin 0x110000 → Bool} {c : Fin 0x110000}
    (hkind : ∀ d, kind d → accepts d = false) (hc : accepts c = false) (text rest : PyStr) :
    (rstripOf kind text ++ c :: rest).takeWhile accepts = text.takeWhile accepts := by
  have hcut : ∀ (first : PyStr) {d : Fin 0x110000} (more : PyStr), accepts d = false →
      (first ++ d :: more).takeWhile accepts = first.takeWhile accepts := by
    intro first d more hd
    rw [List.takeWhile_append]
    split
    next hall =>
      rw [List.takeWhile_cons_of_neg (by simp [hd]), List.append_nil]
      exact ((List.takeWhile_prefix accepts).eq_of_length hall).symm
    next => rfl
  have hsplit : text = rstripOf kind text ++ (text.reverse.takeWhile kind).reverse := by
    rw [rstripOf, ← List.reverse_append, List.takeWhile_append_dropWhile, List.reverse_reverse]
  rw [hcut _ _ hc]
  cases hstripped : (text.reverse.takeWhile kind).reverse with
  | nil =>
      rw [hstripped, List.append_nil] at hsplit
      rw [← hsplit]
  | cons d more =>
      have hd : kind d := List.mem_takeWhile_imp
        (List.mem_reverse.1 (hstripped ▸ List.mem_cons_self))
      rw [hstripped] at hsplit
      conv_rhs => rw [hsplit]
      exact (hcut _ _ (hkind d hd)).symm

/-- An endpoint behind TLS. -/
lemma trusted_https (rest : PyStr) : Url.Trusted (correlateUrl (ofString "https://" ++ rest)) := by
  have hurl : correlateUrl (ofString "https://" ++ rest) = ofString "https" ++ 0x3A ::
      (rstripOf (·.val = 0x2F) (ofString "//" ++ rest) ++ ofString "/v1/correlate") := by
    have hstrip := rstripOf_append (·.val = 0x2F) (ofString "https")
      (show decide ((0x3A : Fin 0x110000).val = 0x2F) = false from rfl) (ofString "//" ++ rest)
    rw [correlateUrl, show ofString "https://" ++ rest =
      ofString "https" ++ [0x3A] ++ (ofString "//" ++ rest) from rfl, hstrip, List.append_assoc,
      List.append_assoc]
    rfl
  rw [Url.Trusted, Url.scheme?, hurl, Url.splitScheme_append (by decide) (by decide)]
  exact .inl rfl

/-- The URL of an endpoint without TLS. -/
lemma correlateUrl_http (rest : PyStr) :
    correlateUrl (ofString "http://127.0.0.1" ++ rest) = ofString "http" ++ 0x3A ::
      (ofString "//" ++ (ofString "127.0.0.1" ++
        (rstripOf (·.val = 0x2F) rest ++ ofString "/v1/correlate"))) := by
  have hstrip := rstripOf_append (·.val = 0x2F) (ofString "http://127.0.0.")
    (show decide ((0x31 : Fin 0x110000).val = 0x2F) = false from rfl) rest
  rw [correlateUrl, show ofString "http://127.0.0.1" ++ rest =
    ofString "http://127.0.0." ++ [0x31] ++ rest from rfl, hstrip, List.append_assoc]
  rfl

lemma keepsHost_iff {rest : PyStr} :
    KeepsHost rest ↔ Url.hostOf (ofString "127.0.0.1" ++
      rest.takeWhile fun c => !Url.isDelimiter c) = ofString "127.0.0.1" := by
  rw [KeepsHost, Url.hostOf_eq_local_iff]
  generalize rest.takeWhile (fun c => !Url.isDelimiter c) = tail
  by_cases huser : 0x40 ∈ tail
  · rw [and_iff_right huser, or_iff_left fun h => h.1 huser, Url.hostPort_append huser]
  · rw [and_iff_right huser, or_iff_right fun h => huser h.1]
    have hnone : 0x40 ∉ ofString "127.0.0.1" ++ tail := by
      rw [List.mem_append, not_or]
      exact ⟨by decide, huser⟩
    have hlocal : ∀ c ∈ ofString "127.0.0.1", decide (c ≠ 0x3A) := List.all_eq_true.1 (by decide)
    rw [Url.hostPort_of_not_mem hnone, List.takeWhile_append_of_pos hlocal,
      List.append_right_eq_self]
    cases tail with
    | nil => exact iff_of_true (.inl rfl) rfl
    | cons c tail =>
        rw [or_iff_right (List.cons_ne_nil _ _), List.head?_cons, Option.some_inj,
          List.takeWhile_cons]
        by_cases hc : c = 0x3A
        · exact iff_of_true hc (if_neg (by simp [hc]))
        · refine iff_of_false hc fun h => ?_
          rw [if_pos (by simp [hc])] at h
          exact List.cons_ne_nil _ _ h

lemma trusted_http_iff (rest : PyStr) :
    Url.Trusted (correlateUrl (ofString "http://127.0.0.1" ++ rest)) ↔ KeepsHost rest := by
  have hsplit := Url.splitScheme_append (show ofString "http" ≠ [] by decide) (by decide)
    (ofString "//" ++ (ofString "127.0.0.1" ++
      (rstripOf (·.val = 0x2F) rest ++ ofString "/v1/correlate")))
  have htail : (ofString "127.0.0.1" ++ (rstripOf (·.val = 0x2F) rest ++
      ofString "/v1/correlate")).takeWhile (fun c => !Url.isDelimiter c) =
        ofString "127.0.0.1" ++ rest.takeWhile fun c => !Url.isDelimiter c := by
    rw [List.takeWhile_append_of_pos (List.all_eq_true.1 (by decide))]
    refine congrArg _ (takeWhile_rstripOf (fun d hd => ?_) (by decide) rest _)
    rw [Url.isDelimiter, hd]
    rfl
  have hhttp : some (ofString "http") ≠ some (ofString "https") := by decide
  rw [keepsHost_iff, Url.Trusted, Url.scheme?, Url.host?, correlateUrl_http, hsplit,
    Option.map_some, Option.bind_some, Url.authorityOf_append, htail, Option.map_some,
    or_iff_right hhttp, and_iff_right rfl, Option.some_inj]

/-! ## The endpoints that are accepted -/

lemma prefix_of_valid {settings : EndpointSettings} {endpoint : PyStr}
    (henabled : settings.enabled = true) (hendpoint : settings.endpoint = some endpoint)
    (hvalid : requireTrustedEndpoint settings = .ok settings) :
    ofString "https://" <+: endpoint ∨ ofString "http://127.0.0.1" <+: endpoint := by
  rw [requireTrustedEndpoint, if_pos henabled, hendpoint] at hvalid
  dsimp only [Option.getD_some] at hvalid
  split at hvalid
  · cases hvalid
  next haccepted =>
    rw [not_or, not_not] at haccepted
    exact haccepted.2.imp List.isPrefixOf_iff_prefix.1 List.isPrefixOf_iff_prefix.1

/-- The token of an enabled client goes to a trusted server exactly if the endpoint is behind TLS,
or what follows the address in it does not change the host. -/
theorem trusted_iff (settings : EndpointSettings) (endpoint : PyStr)
    (henabled : settings.enabled = true) (hendpoint : settings.endpoint = some endpoint)
    (hvalid : requireTrustedEndpoint settings = .ok settings) :
    Url.Trusted (correlateUrl endpoint) ↔
      ofString "https://" <+: endpoint ∨ KeepsHost (endpoint.drop 16) := by
  rcases prefix_of_valid henabled hendpoint hvalid with ⟨rest, rfl⟩ | ⟨rest, rfl⟩
  · exact iff_of_true (trusted_https rest) (.inl (List.prefix_append _ _))
  · have hplain : ¬ofString "https://" <+: ofString "http://127.0.0.1" ++ rest := by
      rintro ⟨more, hmore⟩
      have hfifth := congrArg (·[4]?) hmore
      cases hfifth
    rw [or_iff_right hplain]
    exact trusted_http_iff rest

/-- A port leaves the host as it is. -/
theorem trusted_port : Url.Trusted (ofString "http://127.0.0.1:8080/v1/correlate") := by
  have hurl : correlateUrl (ofString "http://127.0.0.1:8080/") =
      ofString "http://127.0.0.1:8080/v1/correlate" := by decide +kernel
  have hkeeps : KeepsHost (ofString ":8080/") := by decide +kernel
  rw [← hurl]
  exact (trusted_iff ⟨true, some (ofString "http://127.0.0.1:8080/"), some []⟩ _ rfl rfl
    (by decide +kernel)).2 (.inr hkeeps)

/-- A host that begins with the address is accepted, and so is user information that does. -/
theorem foreign_host_accepted :
    (requireTrustedEndpoint ⟨true, some (ofString "http://127.0.0.1.example.org"), some []⟩ =
        .ok ⟨true, some (ofString "http://127.0.0.1.example.org"), some []⟩ ∧
      ¬Url.Trusted (correlateUrl (ofString "http://127.0.0.1.example.org"))) ∧
    (requireTrustedEndpoint ⟨true, some (ofString "http://127.0.0.1@example.org"), some []⟩ =
        .ok ⟨true, some (ofString "http://127.0.0.1@example.org"), some []⟩ ∧
      ¬Url.Trusted (correlateUrl (ofString "http://127.0.0.1@example.org"))) := by
  decide +kernel

end HTTPRabCorrelationProvider

end AVBox
