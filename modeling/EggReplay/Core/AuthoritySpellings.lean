import EggReplay.Core.FieldWildcards
import EggReplay.Core.NearMisses

/-!
Two spellings of one authority in a selection: letter case, and a default port that is written or
left out.
-/

namespace EggReplay.Core.AuthoritySpellings

open EggReplay.Library.Text
open EggReplay.Core.FlowRecord
open EggReplay.Core.Redaction
open EggReplay.Core.Matching
open EggReplay.Core.BodyWildcards
open EggReplay.Core.Consumption
open EggReplay.Core.FieldWildcards
open EggReplay.Core.NearMisses

/-! ### Spellings -/

def defaultPort (scheme : String) : Option String :=
  if toAsciiLowercase scheme = "http" ∨ toAsciiLowercase scheme = "ws" then some "80"
  else if toAsciiLowercase scheme = "https" ∨ toAsciiLowercase scheme = "wss" then some "443"
  else none

/-- A name, an IPv4 address, or an IPv6 address in brackets. -/
def Portless (host : String) : Prop :=
  ':' ∉ host.toList ∨ host.toList.head? = some '[' ∧ host.toList.getLast? = some ']'

/-- The authority is the host, in some letter case and perhaps with the default port. -/
def Spelling (scheme host authority : String) : Prop :=
  toAsciiLowercase authority = toAsciiLowercase host ∨
    ∃ port, defaultPort scheme = some port ∧ Portless host ∧
      toAsciiLowercase authority = toAsciiLowercase host ++ ":" ++ port

def Equivalent (scheme left right : String) : Prop :=
  ∃ host, Spelling scheme host left ∧ Spelling scheme host right

/-! ### Selections -/

def withAuthority (request : HttpRequest) (authority : String) : HttpRequest :=
  { request with authority }

def MatchCandidate.withAuthority (candidate : MatchCandidate) (authority : String) :
    MatchCandidate :=
  { candidate with
    flow := { candidate.flow with
      request := AuthoritySpellings.withAuthority candidate.flow.request authority } }

variable {N : Type} [DecidableEq N]

/-- Writing one authority for the other in a request or in a candidate changes no selection, and
a normalized authority is normalized already. -/
structure SpellingIrrelevant (codec : BodyCodec N) (scheme left right : String) : Prop where
  request : ∀ (matcher : Matcher) (request : HttpRequest) (body : Bytes)
    (candidates : List MatchCandidate) (mode : ConsumptionMode) (session : MatcherSession),
    request.scheme = scheme →
      matcher.select codec (withAuthority request left) body candidates mode session =
        matcher.select codec (withAuthority request right) body candidates mode session
  candidate : ∀ (matcher : Matcher) (request : HttpRequest) (body : Bytes)
    (before after : List MatchCandidate) (candidate : MatchCandidate) (mode : ConsumptionMode)
    (session : MatcherSession), candidate.flow.request.scheme = scheme →
      matcher.select codec request body
          (before ++ MatchCandidate.withAuthority candidate left :: after) mode session =
        matcher.select codec request body
          (before ++ MatchCandidate.withAuthority candidate right :: after) mode session
  idempotent : ∀ (matcher : Matcher) (request : HttpRequest),
    (matcher.normalize
      (withAuthority request (matcher.normalize request).authority)).authority =
        (matcher.normalize request).authority

variable {codec : BodyCodec N} {matcher : Matcher} {scheme left right : String}

def plainArrival (request : HttpRequest) (body : Bytes) : Arrival where
  request := request
  body := body
  loader := fun _ _ => none

theorem select_eq_selectFrom (request : HttpRequest) (body : Bytes)
    (candidates : List MatchCandidate) (mode : ConsumptionMode) (session : MatcherSession) :
    matcher.select codec request body candidates mode session =
      matcher.selectFrom codec (plainArrival request body).request (plainArrival request body).body
        mode session (plainArrival request body).loader 0 candidates
        { near := [], matchingConsumed := false } :=
  rfl

theorem dimensions_withAuthority (request : HttpRequest) (candidate : MatchCandidate)
    (h : toAsciiLowercase left = toAsciiLowercase right) :
    matcher.dimensions (withAuthority request left) candidate =
      matcher.dimensions (withAuthority request right) candidate := by
  have hnormal : matcher.normalize (withAuthority request left) =
      matcher.normalize (withAuthority request right) := by
    rw [Matcher.normalize, Matcher.normalize, withAuthority, withAuthority, h]
  rw [Matcher.dimensions, Matcher.dimensions, hnormal]
  rfl

theorem dimensions_candidate_withAuthority (request : HttpRequest) (candidate : MatchCandidate)
    (h : toAsciiLowercase left = toAsciiLowercase right) :
    matcher.dimensions request (MatchCandidate.withAuthority candidate left) =
      matcher.dimensions request (MatchCandidate.withAuthority candidate right) := by
  have hnormal : matcher.normalize (MatchCandidate.withAuthority candidate left).flow.request =
      matcher.normalize (MatchCandidate.withAuthority candidate right).flow.request := by
    rw [Matcher.normalize, Matcher.normalize, MatchCandidate.withAuthority,
      MatchCandidate.withAuthority, withAuthority, withAuthority, h]
  rw [Matcher.dimensions, Matcher.dimensions, hnormal]
  rfl

/-- The body of a candidate is compared whatever its authority is. -/
theorem bodyMatchesLazy_withAuthority (body : Bytes) (narrowed : Bool) (index : Nat)
    (candidate : MatchCandidate) (authority : String) :
    matcher.bodyMatchesLazy codec body narrowed index
        (MatchCandidate.withAuthority candidate authority) (fun _ _ => none) =
      matcher.bodyMatchesLazy codec body narrowed index candidate (fun _ _ => none) := rfl

theorem select_request_of_lowercase (h : toAsciiLowercase left = toAsciiLowercase right)
    (request : HttpRequest) (body : Bytes) (candidates : List MatchCandidate)
    (mode : ConsumptionMode) (session : MatcherSession) :
    matcher.select codec (withAuthority request left) body candidates mode session =
      matcher.select codec (withAuthority request right) body candidates mode session := by
  rw [select_eq_selectFrom, select_eq_selectFrom]
  apply selectFrom_congr rfl
  intro k candidate candidate' hcandidate hcandidate'
  obtain rfl := Option.some.inj (hcandidate.symm.trans hcandidate')
  rw [differences, differences, plainArrival, plainArrival]
  dsimp only
  rw [dimensions_withAuthority request candidate h]

theorem select_candidate_of_lowercase (h : toAsciiLowercase left = toAsciiLowercase right)
    (request : HttpRequest) (body : Bytes) (before after : List MatchCandidate)
    (candidate : MatchCandidate) (mode : ConsumptionMode) (session : MatcherSession) :
    matcher.select codec request body
        (before ++ MatchCandidate.withAuthority candidate left :: after) mode session =
      matcher.select codec request body
        (before ++ MatchCandidate.withAuthority candidate right :: after) mode session := by
  rw [select_eq_selectFrom, select_eq_selectFrom]
  apply selectFrom_congr (by rw [List.length_append, List.length_append]; rfl)
  intro k found found' hfound hfound'
  have hother : ∀ other : MatchCandidate, found = other → found' = other →
      differences codec matcher (plainArrival request body) (0 + k) found =
        differences codec matcher (plainArrival request body) (0 + k) found' := by
    rintro other rfl rfl
    rfl
  rcases Nat.lt_trichotomy k before.length with hk | rfl | hk
  · rw [List.getElem?_append_left hk] at hfound hfound'
    exact hother found rfl (Option.some.inj (hfound'.symm.trans hfound))
  · rw [List.getElem?_append_right (Nat.le_refl _), Nat.sub_self] at hfound hfound'
    obtain rfl := Option.some.inj hfound
    obtain rfl := Option.some.inj hfound'
    rw [differences, differences, plainArrival]
    dsimp only
    rw [dimensions_candidate_withAuthority request candidate h, bodyMatchesLazy_withAuthority,
      bodyMatchesLazy_withAuthority]
  · rw [List.getElem?_append_right (Nat.le_of_lt hk)] at hfound hfound'
    obtain ⟨offset, hoffset⟩ : ∃ offset, k - before.length = offset + 1 :=
      ⟨k - before.length - 1, by omega⟩
    rw [hoffset, List.getElem?_cons_succ] at hfound hfound'
    exact hother found rfl (Option.some.inj (hfound'.symm.trans hfound))

theorem toAsciiLowercase_authority_idem (request : HttpRequest) :
    (matcher.normalize (withAuthority request (matcher.normalize request).authority)).authority =
      (matcher.normalize request).authority :=
  toAsciiLowercase_idem request.authority

/-- A request to the authority of the only candidate. -/
def requestTo (scheme authority : String) : HttpRequest :=
  { plainRequest with scheme, authority }

def candidateAt (scheme authority : String) : MatchCandidate :=
  .fromFlow { plainFlow [] with request := requestTo scheme authority }

theorem dimensions_candidateAt :
    (Matcher.strict 0).dimensions (requestTo scheme left) (candidateAt scheme right) = [] ↔
      toAsciiLowercase left = toAsciiLowercase right := by
  rw [dimensions_eq_nil_iff rfl]
  constructor
  · intro h
    exact h.authority
  · intro h
    exact ⟨rfl, rfl, h, rfl, fun _ _ => rfl, rfl⟩

theorem select_candidateAt :
    ((Matcher.strict 0).select codec (requestTo scheme left) [] [candidateAt scheme right]
      .unlimited MatcherSession.new).1 = .matched 0 ↔
      toAsciiLowercase left = toAsciiLowercase right := by
  have hbody : (Matcher.strict 0).bodyMatchesLazy codec [] true 0 (candidateAt scheme right)
      (fun _ _ => none) = true := by
    have hunmarked : ¬(redactedBodyJsonPaths [] false ≠ ∅ ∨ redactedBodyFormKeys [] ≠ ∅) := by
      decide
    rw [Matcher.bodyMatchesLazy]
    exact if_neg hunmarked
  have hdiffers : differences codec (Matcher.strict 0) (plainArrival (requestTo scheme left) []) 0
      (candidateAt scheme right) = [] ↔ toAsciiLowercase left = toAsciiLowercase right := by
    rw [differences_eq_nil]
    exact (and_iff_left hbody).trans dimensions_candidateAt
  rw [select_eq_selectFrom, selectFrom_cons_differences]
  constructor
  · intro h
    split at h
    · rename_i hsame
      exact hdiffers.mp hsame
    · exact absurd (selectFrom_ge _ _ _ _ _ _ _ _ _ _ h) (by decide)
  · intro h
    rw [if_pos (hdiffers.mpr h)]
    rfl

/-- The spelling of an authority is irrelevant exactly where two spellings differ in letter case
alone: a default port is not taken away. -/
theorem spelling_irrelevant_iff (codec : BodyCodec N) (scheme left right : String) :
    SpellingIrrelevant codec scheme left right ↔
      toAsciiLowercase left = toAsciiLowercase right := by
  constructor
  · intro h
    have hselect := h.request (Matcher.strict 0) (requestTo scheme left) []
      [candidateAt scheme left] .unlimited MatcherSession.new rfl
    have hmatched := (@select_candidateAt _ _ codec scheme _ _).mpr
      (rfl : toAsciiLowercase left = toAsciiLowercase left)
    have hright := (congrArg Prod.fst hselect).symm.trans hmatched
    exact (select_candidateAt.mp hright).symm
  · intro h
    refine ⟨?_, ?_, fun _ => toAsciiLowercase_authority_idem⟩
    · intro matcher request body candidates mode session _
      exact select_request_of_lowercase h request body candidates mode session
    · intro matcher request body before after candidate mode session _
      exact select_candidate_of_lowercase h request body before after candidate mode session

/-- `example.com` and `example.com:443` are one authority in the scheme `https`. -/
theorem default_port_relevant :
    ¬ ∀ scheme left right : String, Equivalent scheme left right →
      SpellingIrrelevant sampleCodec scheme left right := by
  intro h
  have hequivalent : Equivalent "https" "example.com" "example.com:443" :=
    ⟨"example.com", .inl rfl, .inr ⟨"443", by decide, .inl (by decide),
      by decide⟩⟩
  have hsame := (h "https" "example.com" "example.com:443" hequivalent).request (Matcher.strict 0)
    (requestTo "https" "example.com") [] [candidateAt "https" "example.com"] .unlimited
    MatcherSession.new rfl
  exact absurd hsame (by decide)

end EggReplay.Core.AuthoritySpellings
