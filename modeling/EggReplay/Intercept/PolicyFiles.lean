import EggReplay.Intercept.Authorities
import EggReplay.Intercept.PolicyVerdicts
import EggReplay.Library.JsonText

/-!
Policy files of the intercepting proxy: how a file is read, which files are refused, and the
target policy that a file is converted to.
-/

namespace EggReplay.Intercept.PolicyFiles

open EggReplay.Intercept.Authorities
open EggReplay.Intercept.Hosts
open EggReplay.Intercept.PolicyVerdicts
open EggReplay.Intercept.TargetPolicies
open EggReplay.Library.Checks
open EggReplay.Library.IpText
open EggReplay.Library.JsonText
open EggReplay.Library.Text

def interceptPolicyVersion : String := "eggreplay-intercept-policy/v1"
def maxPolicyFileBytes : Nat := 64 * 1024
def detailLen : Nat := 200

inductive PolicyFileError where
  | tooLarge
  | invalid (detail : String)
  | unsupportedVersion (detail : String)
  | tooManyRules (count : Nat)
  | mixedActions
  deriving DecidableEq, Repr

def boundDetail (input : String) : String :=
  if input.utf8ByteSize ≤ detailLen then input
  else String.ofList (input.toList.take detailLen) ++ "..."

def PolicyError.display : PolicyError → String
  | .invalidHost message => "invalid host: " ++ message
  | .invalidPort message => "invalid port: " ++ message
  | .invalidRule message => "invalid rule: " ++ message
  | .tooManyRules count => "too many policy rules: " ++ Nat.repr count

/-- A refusal of the policy layer, as the file reader reports it. -/
def refused (err : PolicyError) : PolicyFileError :=
  .invalid (boundDetail (PolicyError.display err))

/-! ### Words -/

/-- One of a list of words, in any case and with white space around it. -/
def parseWord {α : Type} (words : List (String × α)) (unknown input : String) :
    Except PolicyFileError α :=
  let word := toAsciiLowercase (trim input)
  orFail (words.lookup word) (.invalid (unknown ++ boundDetail word))

inductive FileAction where
  | deny | tunnel | intercept
  deriving DecidableEq, Repr

def FileAction.parse (input : String) : Except PolicyFileError FileAction :=
  parseWord [("deny", .deny), ("tunnel", .tunnel), ("intercept", .intercept)]
    "unknown rule action: " input

def FileAction.connectAction : FileAction → ConnectAction
  | .deny => .deny
  | .tunnel => .tunnel
  | .intercept => .intercept

def FileAction.ruleAction : FileAction → RuleAction
  | .deny => .deny
  | .tunnel | .intercept => .allow

def parseConnectAction (input : String) : Except PolicyFileError ConnectAction :=
  parseWord [("deny", .deny), ("tunnel", .tunnel), ("intercept", .intercept)]
    "unknown default_connect_action: " input

def parseKind (input : String) : Except PolicyFileError RequestKind :=
  parseWord [("plain", .plain), ("connect", .connect), ("any", .any)]
    "unknown rule kind: " input

/-! ### Documents -/

structure RuleDocument (N : Type) where
  host : String
  ports : Json N := .null
  kind : String := "any"
  action : String
  deriving Repr

structure PolicyDocument (N : Type) where
  version : String
  defaultConnectAction : String := "deny"
  rules : List (RuleDocument N) := []
  deriving Repr

/-- The JSON reader: documents out of bytes, and its numbers as integers and as text. -/
structure PolicyReader (N : Type) where
  document : Bytes → Except String (PolicyDocument N)
  asU64 : N → Option UInt64
  printNumber : N → List Char

variable {N : Type}

/-! ### Ports -/

def toPort (number : UInt64) : Option UInt16 :=
  if number.toNat < 2 ^ 16 then some (UInt16.ofNat number.toNat) else none

def parseOnePort (input : String) : Except PolicyFileError UInt16 := do
  let port ← orFail (parseU16 input) (.invalid ("invalid port: " ++ boundDetail input))
  ensure (port ≠ 0) (.invalid "port zero is rejected")
  pure port

def parsePortText (text : String) : Except PolicyFileError PortMatch :=
  if eqIgnoreAsciiCase text "any" then .ok .any
  else
    match splitOnce text '-' with
    | some (low, high) => do
        let first ← parseOnePort (trim low)
        let last ← parseOnePort (trim high)
        (PortMatch.rangeFrom first last).mapError refused
    | none => do
        let port ← parseOnePort text
        (PortMatch.exactFrom port).mapError refused

def portItem (reader : PolicyReader N) (item : Json N) : Except PolicyFileError UInt16 :=
  let failure :=
    .invalid ("invalid port in set: " ++
      boundDetail (String.ofList (item.render reader.printNumber)))
  match item with
  | .number number => orFail ((reader.asU64 number).bind toPort) failure
  | .null | .bool _ | .string _ | .array _ | .object _ => .error failure

def parsePorts (reader : PolicyReader N) : Json N → Except PolicyFileError PortMatch
  | .null => .ok .any
  | .string text => parsePortText (trim text)
  | .number number => do
      let port ← orFail ((reader.asU64 number).bind toPort)
        (.invalid ("invalid port: " ++
          boundDetail (String.ofList (reader.printNumber number))))
      (PortMatch.exactFrom port).mapError refused
  | .array items => do
      let ports ← items.mapM (portItem reader)
      (PortMatch.setFrom ports).mapError refused
  | .bool _ | .object _ =>
      .error (.invalid "ports must be \"any\", a port, a \"lo-hi\" range, or an array of ports")

/-! ### Rules -/

structure FileRule where
  host : HostMatch
  ports : PortMatch
  kind : RequestKind
  action : FileAction
  hostDisplay : String
  deriving DecidableEq, Repr

def normalizedHostDisplay (input : String) : String := toAsciiLowercase (trim input)

def invalidHostPattern (trimmed : String) : PolicyFileError :=
  .invalid ("invalid host pattern: " ++ boundDetail trimmed)

/-- A pattern without a suffix mark: an address, perhaps in brackets, or a name. -/
def parseExactPattern (trimmed : String) : Except PolicyFileError HostMatch :=
  match bracketed trimmed with
  | some inner => do
      let addr ← orFail (parseIpAddr inner) (invalidHostPattern trimmed)
      pure (.exactIp addr)
  | none =>
      match parseIpAddr trimmed with
      | some addr => .ok (.exactIp addr)
      | none => (HostMatch.exactDnsFrom trimmed).mapError refused

def parseHostPattern (input : String) : Except PolicyFileError HostMatch :=
  let trimmed := trim input
  match (stripLead trimmed "*.").orElse fun _ => stripLead trimmed "." with
  | some parent => do
      ensure (parent ≠ "") (.invalid "empty suffix parent")
      (HostMatch.suffixDnsFrom parent).mapError refused
  | none => parseExactPattern trimmed

def parseRule (reader : PolicyReader N) (rule : RuleDocument N) :
    Except PolicyFileError FileRule := do
  let hostDisplay := trim rule.host
  ensure (hostDisplay ≠ "") (.invalid "rule host must not be empty")
  let host ← parseHostPattern hostDisplay
  let ports ← parsePorts reader rule.ports
  let kind ← parseKind rule.kind
  let action ← FileAction.parse rule.action
  pure { host, ports, kind, action, hostDisplay := normalizedHostDisplay hostDisplay }

/-! ### Policies -/

/-- The rules that allow a CONNECT agree with the default. -/
def checkCoherence (defaultConnectAction : ConnectAction) (rules : List FileRule) :
    Except PolicyFileError Unit :=
  checkAll (fun rule =>
    if rule.action = .deny then .ok ()
    else if rule.kind.covers .connect = false then .ok ()
    else ensure (rule.action.connectAction = defaultConnectAction) .mixedActions) rules

structure FilePolicy where
  defaultConnectAction : ConnectAction
  rules : List FileRule
  coherent : checkCoherence defaultConnectAction rules = .ok ()

def FilePolicy.checked (defaultConnectAction : ConnectAction) (rules : List FileRule) :
    Except PolicyFileError FilePolicy :=
  match h : checkCoherence defaultConnectAction rules with
  | .ok () => .ok ⟨defaultConnectAction, rules, h⟩
  | .error failure => .error failure

def FilePolicy.fromDocument (reader : PolicyReader N) (document : PolicyDocument N) :
    Except PolicyFileError FilePolicy := do
  ensure (document.version = interceptPolicyVersion)
    (.unsupportedVersion (boundDetail document.version))
  ensure (document.rules.length ≤ maxPolicyRules) (.tooManyRules document.rules.length)
  let defaultConnectAction ← parseConnectAction document.defaultConnectAction
  let rules ← document.rules.mapM (parseRule reader)
  FilePolicy.checked defaultConnectAction rules

def FilePolicy.parseJson (reader : PolicyReader N) (bytes : Bytes) :
    Except PolicyFileError FilePolicy := do
  ensure (bytes.length ≤ maxPolicyFileBytes) .tooLarge
  let document ← (reader.document bytes).mapError fun err => .invalid (boundDetail err)
  FilePolicy.fromDocument reader document

def FileRule.toRule (rule : FileRule) : Rule where
  host := rule.host
  ports := rule.ports
  kind := rule.kind
  action := rule.action.ruleAction

def FilePolicy.toTargetPolicy (policy : FilePolicy) : Except PolicyError TargetPolicy :=
  TargetPolicy.new (policy.rules.map FileRule.toRule) policy.defaultConnectAction

/-! ### The rule that wins -/

section

variable {host : NormalizedHost} {port : UInt16} {kind : RequestKind}

/-- The matching rule of the highest score; one that denies where rules tie. -/
structure Winning (rules : List FileRule) (host : NormalizedHost) (port : UInt16)
    (kind : RequestKind) (winner : FileRule) : Prop where
  mem : winner ∈ rules
  matched : winner.toRule.matches host port kind = true
  highest : ∀ rule ∈ rules, rule.toRule.matches host port kind = true →
    rule.toRule.specificity ≤ winner.toRule.specificity
  denies : ∀ rule ∈ rules, rule.toRule.matches host port kind = true →
    rule.toRule.specificity = winner.toRule.specificity → rule.action = .deny →
    winner.action = .deny

theorem ruleAction_eq_deny {action : FileAction} : action.ruleAction = .deny ↔ action = .deny := by
  cases action with
  | deny => simp [FileAction.ruleAction]
  | tunnel => simp [FileAction.ruleAction]
  | intercept => simp [FileAction.ruleAction]

theorem mem_matching_toRule {rules : List FileRule} {rule : Rule} :
    rule ∈ matching (rules.map FileRule.toRule) host port kind ↔
      ∃ written ∈ rules, written.toRule.matches host port kind = true ∧
        written.toRule = rule := by
  rw [matching, List.mem_filter, List.mem_map]
  constructor
  · rintro ⟨⟨written, hmem, rfl⟩, hmatches⟩
    exact ⟨written, hmem, hmatches, rfl⟩
  · rintro ⟨written, hmem, hmatches, rfl⟩
    exact ⟨⟨written, hmem, rfl⟩, hmatches⟩

/-- The winner of the file is the best rule of the converted policy. -/
theorem Winning.best {rules : List FileRule} {winner : FileRule}
    (h : Winning rules host port kind winner) :
    Best (matching (rules.map FileRule.toRule) host port kind) winner.toRule.specificity
      winner.action.ruleAction where
  attained := by
    refine ⟨winner.toRule, ?_, rfl, rfl⟩
    exact mem_matching_toRule.mpr ⟨winner, h.mem, h.matched, rfl⟩
  highest := by
    intro rule hrule
    obtain ⟨written, hmem, hmatches, rfl⟩ := mem_matching_toRule.mp hrule
    exact h.highest written hmem hmatches
  denies := by
    intro rule hrule hequal hdeny
    obtain ⟨written, hmem, hmatches, rfl⟩ := mem_matching_toRule.mp hrule
    have hwritten : written.action = .deny := ruleAction_eq_deny.mp hdeny
    exact ruleAction_eq_deny.mpr (h.denies written hmem hmatches hequal hwritten)

theorem exists_winning {rules : List FileRule} {rule : FileRule} (hrule : rule ∈ rules)
    (hmatches : rule.toRule.matches host port kind = true) :
    ∃ winner, Winning rules host port kind winner := by
  have hmapped : rule.toRule ∈ rules.map FileRule.toRule := List.mem_map_of_mem hrule
  obtain ⟨score, action, hbest⟩ := exists_best hmapped hmatches
  obtain ⟨attaining, hattaining, rfl, rfl⟩ := hbest.attained
  obtain ⟨winner, hmem, hmatched, rfl⟩ := mem_matching_toRule.mp hattaining
  refine ⟨winner, hmem, hmatched, ?_, ?_⟩
  · intro other hother hothers
    exact hbest.highest other.toRule (mem_matching_toRule.mpr ⟨other, hother, hothers, rfl⟩)
  · intro other hother hothers hequal hdeny
    have hdenies := hbest.denies other.toRule
      (mem_matching_toRule.mpr ⟨other, hother, hothers, rfl⟩) hequal
      (ruleAction_eq_deny.mpr hdeny)
    exact ruleAction_eq_deny.mp hdenies

/-! ### What a file means -/

theorem checkCoherence_eq_ok {defaultConnectAction : ConnectAction} {rules : List FileRule} :
    checkCoherence defaultConnectAction rules = .ok () ↔ ∀ rule ∈ rules, rule.action ≠ .deny →
      rule.kind.covers .connect = true →
        rule.action.connectAction = defaultConnectAction := by
  rw [checkCoherence, checkAll_eq_ok]
  apply forall_congr'
  intro rule
  apply imp_congr_right
  intro _
  by_cases hdeny : rule.action = .deny
  · simp [hdeny]
  · by_cases hcovers : rule.kind.covers .connect = true
    · simp [hdeny, hcovers]
    · simp [hdeny, hcovers]

theorem checked_eq_ok {defaultConnectAction : ConnectAction} {rules : List FileRule}
    {policy : FilePolicy} (h : FilePolicy.checked defaultConnectAction rules = .ok policy) :
    policy.defaultConnectAction = defaultConnectAction ∧ policy.rules = rules := by
  rw [FilePolicy.checked] at h
  split at h
  · cases h
    exact ⟨rfl, rfl⟩
  · cases h

/-- What an accepted file consists of. -/
structure Read (reader : PolicyReader N) (bytes : Bytes) (policy : FilePolicy)
    (document : PolicyDocument N) : Prop where
  size : bytes.length ≤ maxPolicyFileBytes
  decoded : reader.document bytes = .ok document
  version : document.version = interceptPolicyVersion
  bounded : document.rules.length ≤ maxPolicyRules
  default : parseConnectAction document.defaultConnectAction = .ok policy.defaultConnectAction
  rules : List.Forall₂ (fun written rule => parseRule reader written = .ok rule)
    document.rules policy.rules

theorem parseJson_read {reader : PolicyReader N} {bytes : Bytes} {policy : FilePolicy}
    (h : FilePolicy.parseJson reader bytes = .ok policy) :
    ∃ document, Read reader bytes policy document := by
  rw [FilePolicy.parseJson, bind_unit_eq_ok, ensure_eq_ok] at h
  obtain ⟨hsize, h⟩ := h
  rw [bind_eq_ok] at h
  obtain ⟨document, hdecoded, h⟩ := h
  rw [FilePolicy.fromDocument, bind_unit_eq_ok, ensure_eq_ok] at h
  obtain ⟨hversion, h⟩ := h
  rw [bind_unit_eq_ok, ensure_eq_ok] at h
  obtain ⟨hbounded, h⟩ := h
  rw [bind_eq_ok] at h
  obtain ⟨defaultAction, hdefault, h⟩ := h
  rw [bind_eq_ok] at h
  obtain ⟨rules, hrules, h⟩ := h
  obtain ⟨rfl, rfl⟩ := checked_eq_ok h
  exact ⟨document, hsize, mapError_eq_ok.mp hdecoded, hversion, hbounded, hdefault,
    mapM_eq_ok.mp hrules⟩

theorem toTargetPolicy_of_bounded {policy : FilePolicy}
    (h : policy.rules.length ≤ maxPolicyRules) :
    ∃ target, policy.toTargetPolicy = .ok target ∧
      target.rules = policy.rules.map FileRule.toRule ∧
      target.defaultConnectAction = policy.defaultConnectAction := by
  have hmapped : (policy.rules.map FileRule.toRule).length ≤ maxPolicyRules := by
    rw [List.length_map]
    exact h
  refine ⟨⟨policy.rules.map FileRule.toRule, policy.defaultConnectAction, hmapped⟩, ?_, rfl, rfl⟩
  rw [FilePolicy.toTargetPolicy, TargetPolicy.new, dif_pos hmapped]

/-- The converted policy decides as the rules of the file do. -/
structure Means (policy : FilePolicy) (target : TargetPolicy) (host : NormalizedHost)
    (port : UInt16) : Prop where
  connect : ∀ winner, Winning policy.rules host port .connect winner →
    target.resolveConnect host port = winner.action.connectAction
  unmatchedConnect : (∀ rule ∈ policy.rules, rule.toRule.matches host port .connect = false) →
    target.resolveConnect host port = .deny
  plain : ∀ winner, Winning policy.rules host port .plain winner →
    (target.allowsPlain host port = true ↔ winner.action ≠ .deny)
  unmatchedPlain : (∀ rule ∈ policy.rules, rule.toRule.matches host port .plain = false) →
    target.allowsPlain host port = false

theorem evaluate_of_winning {policy : FilePolicy} {target : TargetPolicy} {winner : FileRule}
    (hrules : target.rules = policy.rules.map FileRule.toRule)
    (hwins : Winning policy.rules host port kind winner) :
    target.evaluate host port kind = winner.action.ruleAction := by
  rw [evaluate_eq_verdict, hrules]
  exact verdict_of_best hwins.best

theorem evaluate_of_unmatched {policy : FilePolicy} {target : TargetPolicy}
    (hrules : target.rules = policy.rules.map FileRule.toRule)
    (hnone : ∀ rule ∈ policy.rules, rule.toRule.matches host port kind = false) :
    target.evaluate host port kind = .deny := by
  rw [evaluate_eq_verdict, hrules, verdict_eq_deny_iff]
  apply not_admitted_of_unmatched
  intro rule hrule
  obtain ⟨written, hwritten, rfl⟩ := List.mem_map.mp hrule
  exact hnone written hwritten

/-- The one default stands for the actions of all rules that can win a CONNECT. -/
theorem resolveConnect_of_winning {policy : FilePolicy} {target : TargetPolicy}
    {winner : FileRule} (hrules : target.rules = policy.rules.map FileRule.toRule)
    (hdefault : target.defaultConnectAction = policy.defaultConnectAction)
    (hwins : Winning policy.rules host port .connect winner) :
    target.resolveConnect host port = winner.action.connectAction := by
  have hcovers : winner.kind.covers .connect = true := (Rule.matches_iff.mp hwins.matched).2
  have hcoherent := checkCoherence_eq_ok.mp policy.coherent winner hwins.mem
  rw [TargetPolicy.resolveConnect, evaluate_of_winning hrules hwins]
  cases haction : winner.action with
  | deny => rfl
  | tunnel =>
      rw [haction] at hcoherent
      exact hdefault.trans (hcoherent (by decide) hcovers).symm
  | intercept =>
      rw [haction] at hcoherent
      exact hdefault.trans (hcoherent (by decide) hcovers).symm

theorem means_of_converted {policy : FilePolicy} {target : TargetPolicy}
    (hrules : target.rules = policy.rules.map FileRule.toRule)
    (hdefault : target.defaultConnectAction = policy.defaultConnectAction) :
    Means policy target host port where
  connect winner hwins := resolveConnect_of_winning hrules hdefault hwins
  unmatchedConnect hnone := by
    rw [TargetPolicy.resolveConnect, evaluate_of_unmatched hrules hnone]
  plain winner hwins := by
    rw [TargetPolicy.allowsPlain, evaluate_of_winning hrules hwins, decide_eq_true_eq]
    cases winner.action with
    | deny => decide
    | tunnel => decide
    | intercept => decide
  unmatchedPlain hnone := by
    rw [TargetPolicy.allowsPlain, evaluate_of_unmatched hrules hnone]
    rfl

/-- An accepted file is converted, and what it is converted to decides every target as the
winning rule of the file does. -/
theorem parseJson_means {reader : PolicyReader N} {bytes : Bytes} {policy : FilePolicy}
    (h : FilePolicy.parseJson reader bytes = .ok policy) :
    (∃ document, Read reader bytes policy document) ∧
    ∃ target, policy.toTargetPolicy = .ok target ∧
      ∀ (host : NormalizedHost) (port : UInt16), Means policy target host port ∧
        ∀ kind : RequestKind, (∃ rule ∈ policy.rules,
          rule.toRule.matches host port kind = true) →
            ∃ winner, Winning policy.rules host port kind winner := by
  obtain ⟨document, hread⟩ := parseJson_read h
  have hbounded : policy.rules.length ≤ maxPolicyRules := by
    rw [← hread.rules.length_eq]
    exact hread.bounded
  obtain ⟨target, htarget, hrules, hdefault⟩ := toTargetPolicy_of_bounded hbounded
  refine ⟨⟨document, hread⟩, target, htarget, ?_⟩
  intro host port
  refine ⟨means_of_converted hrules hdefault, ?_⟩
  rintro kind ⟨rule, hrule, hmatches⟩
  exact exists_winning hrule hmatches

end

/-! ### A file that tunnels one host -/

def tunnelText : String :=
  "\x7b\"version\":\"eggreplay-intercept-policy/v1\",\"default_connect_action\":\"tunnel\"," ++
    "\"rules\":[\x7b\"host\":\"a.test\",\"action\":\"tunnel\"\x7d]\x7d"

def tunnelDocument : PolicyDocument UInt64 where
  version := "eggreplay-intercept-policy/v1"
  defaultConnectAction := "tunnel"
  rules := [{ host := "a.test", action := "tunnel" }]

/-- A reader of documents that list one host. -/
def tunnelReader : PolicyReader UInt64 where
  document := fun bytes =>
    if bytes = utf8 tunnelText.toList then .ok tunnelDocument else .error "unread"
  asU64 := some
  printNumber := fun number => (Nat.repr number.toNat).toList

def tunnelRule : FileRule where
  host := .exactDns "a.test"
  ports := .any
  kind := .any
  action := .tunnel
  hostDisplay := "a.test"

theorem tunnelRule_coherent : checkCoherence .tunnel [tunnelRule] = .ok () := by
  decide

def tunnelPolicy : FilePolicy := ⟨.tunnel, [tunnelRule], tunnelRule_coherent⟩

theorem tunnelText_parsed :
    FilePolicy.parseJson tunnelReader (utf8 tunnelText.toList) = .ok tunnelPolicy := by
  have hdocument : tunnelReader.document (utf8 tunnelText.toList) = .ok tunnelDocument := by
    dsimp only [tunnelReader]
    rw [if_pos rfl]
  have hsize : (utf8 tunnelText.toList).length ≤ maxPolicyFileBytes := by
    decide +kernel
  have hrules : FilePolicy.fromDocument tunnelReader tunnelDocument = .ok tunnelPolicy := by
    rfl
  rw [FilePolicy.parseJson, ensure_of_true hsize, hdocument]
  exact hrules

/-- The one rule of the file wins on its host, and the CONNECT is tunneled. -/
theorem tunnelText_means :
    (∃ document, Read tunnelReader (utf8 tunnelText.toList) tunnelPolicy document) ∧
    ∃ target, tunnelPolicy.toTargetPolicy = .ok target ∧
      ∀ (host : NormalizedHost) (port : UInt16), Means tunnelPolicy target host port ∧
        ∀ kind : RequestKind, (∃ rule ∈ tunnelPolicy.rules,
          rule.toRule.matches host port kind = true) →
            ∃ winner, Winning tunnelPolicy.rules host port kind winner :=
  parseJson_means tunnelText_parsed

end EggReplay.Intercept.PolicyFiles
