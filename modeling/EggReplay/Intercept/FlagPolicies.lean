import EggReplay.Intercept.PolicyFiles

/-!
Policies out of command-line flags: patterns of hosts to allow and to deny, and the defaults
under which they make a policy.
-/

namespace EggReplay.Intercept.FlagPolicies

open EggReplay.Intercept.Hosts
open EggReplay.Intercept.PolicyFiles
open EggReplay.Intercept.PolicyVerdicts
open EggReplay.Intercept.TargetPolicies
open EggReplay.Library.Checks
open EggReplay.Library.Text

/-- What an allowed host does under a default. -/
def allowAction : ConnectAction → FileAction
  | .intercept => .intercept
  | .tunnel | .deny => .tunnel

/-- A rule on any port and any kind. -/
def patternRule (action : FileAction) (trimmed : String) (pattern : HostMatch) : FileRule where
  host := pattern
  ports := .any
  kind := .any
  action := action
  hostDisplay := normalizedHostDisplay trimmed

def flagRule (side : String) (action : FileAction) (host : String) :
    Except PolicyFileError FileRule := do
  let trimmed := trim host
  ensure (trimmed ≠ "") (.invalid (side ++ " host must not be empty"))
  let pattern ← parseHostPattern trimmed
  pure (patternRule action trimmed pattern)

def policyFromFlags (defaultAction : ConnectAction) (allowHosts denyHosts : List String) :
    Except PolicyFileError FilePolicy := do
  let total := allowHosts.length + denyHosts.length
  ensure (total ≤ maxPolicyRules) (.tooManyRules total)
  let allowed ← allowHosts.mapM (flagRule "allow" (allowAction defaultAction))
  let denied ← denyHosts.mapM (flagRule "deny" .deny)
  FilePolicy.checked defaultAction (allowed ++ denied)

/-! ### The rules of the flags -/

def ValidPattern (host : String) (pattern : HostMatch) : Prop :=
  trim host ≠ "" ∧ parseHostPattern (trim host) = .ok pattern

/-- Rules on any port and any kind, one for each pattern. -/
structure FlagRules (action : FileAction) (patterns : List HostMatch) (rules : List FileRule) :
    Prop where
  hosts : rules.map (·.host) = patterns
  uniform : ∀ rule ∈ rules, (rule.ports = .any ∧ rule.kind = .any) ∧ rule.action = action

theorem flagRules_of_valid {hosts : List String} {patterns : List HostMatch}
    (h : List.Forall₂ ValidPattern hosts patterns) (side : String) (action : FileAction) :
    ∃ rules, hosts.mapM (flagRule side action) = .ok rules ∧
      FlagRules action patterns rules := by
  induction h with
  | nil =>
      refine ⟨[], rfl, rfl, ?_⟩
      intro rule hrule
      exact absurd hrule List.not_mem_nil
  | @cons host pattern hosts patterns hfirst _ ih =>
      obtain ⟨rules, hrules, hmade⟩ := ih
      have hrule : flagRule side action host =
          .ok (patternRule action (trim host) pattern) := by
        rw [flagRule, ensure_of_true hfirst.1, hfirst.2]
        rfl
      refine ⟨patternRule action (trim host) pattern :: rules, ?_, ?_, ?_⟩
      · rw [List.mapM_cons, hrule, hrules]
        rfl
      · rw [List.map_cons, hmade.hosts]
        rfl
      · intro rule hmem
        rcases List.mem_cons.mp hmem with rfl | hmem
        · exact ⟨⟨rfl, rfl⟩, rfl⟩
        · exact hmade.uniform rule hmem

section

variable {host : NormalizedHost} {port : UInt16} {kind : RequestKind} {action : FileAction}
  {patterns : List HostMatch} {rules : List FileRule}

theorem FlagRules.host_mem (h : FlagRules action patterns rules) {rule : FileRule}
    (hrule : rule ∈ rules) : rule.host ∈ patterns := by
  rw [← h.hosts]
  exact List.mem_map_of_mem hrule

theorem FlagRules.exists_rule (h : FlagRules action patterns rules) {pattern : HostMatch}
    (hpattern : pattern ∈ patterns) : ∃ rule ∈ rules, rule.host = pattern := by
  rw [← h.hosts] at hpattern
  exact List.mem_map.mp hpattern

theorem FlagRules.matches (h : FlagRules action patterns rules) {rule : FileRule}
    (hrule : rule ∈ rules) :
    rule.toRule.matches host port kind = rule.host.matches host := by
  obtain ⟨⟨hports, hkind⟩, -⟩ := h.uniform rule hrule
  simp [Rule.matches, FileRule.toRule, hports, hkind, PortMatch.matches, RequestKind.covers]

theorem FlagRules.specificity (h : FlagRules action patterns rules) {rule : FileRule}
    (hrule : rule ∈ rules) : rule.toRule.specificity = rule.host.specificity := by
  obtain ⟨⟨hports, hkind⟩, -⟩ := h.uniform rule hrule
  simp [Rule.specificity, FileRule.toRule, hports, hkind, PortMatch.specificity,
    RequestKind.specificity]

theorem FlagRules.ruleAction (h : FlagRules action patterns rules) {rule : FileRule}
    (hrule : rule ∈ rules) : rule.toRule.action = action.ruleAction := by
  rw [FileRule.toRule, (h.uniform rule hrule).2]

end

/-! ### Coherence -/

theorem allowAction_ne_deny (defaultAction : ConnectAction) :
    allowAction defaultAction ≠ .deny := by
  cases defaultAction with
  | deny => decide
  | tunnel => decide
  | intercept => decide

theorem connectAction_allowAction (defaultAction : ConnectAction) :
    (allowAction defaultAction).connectAction = defaultAction ↔ defaultAction ≠ .deny := by
  cases defaultAction with
  | deny => decide
  | tunnel => decide
  | intercept => decide

/-- The rules of flags are coherent unless a host is allowed under a denying default. -/
theorem flags_coherent_iff {defaultAction : ConnectAction} {allowed denied : List HostMatch}
    {allowRules denyRules : List FileRule}
    (hallow : FlagRules (allowAction defaultAction) allowed allowRules)
    (hdeny : FlagRules .deny denied denyRules) :
    checkCoherence defaultAction (allowRules ++ denyRules) = .ok () ↔
      defaultAction ≠ .deny ∨ allowed = [] := by
  rw [checkCoherence_eq_ok]
  constructor
  · intro hcoherent
    by_cases hempty : allowed = []
    · exact .inr hempty
    · left
      obtain ⟨pattern, hpattern⟩ := List.exists_mem_of_ne_nil allowed hempty
      obtain ⟨rule, hrule, -⟩ := hallow.exists_rule hpattern
      obtain ⟨⟨-, hkind⟩, haction⟩ := hallow.uniform rule hrule
      have hagrees := hcoherent rule (List.mem_append_left _ hrule)
      rw [haction, hkind] at hagrees
      exact (connectAction_allowAction defaultAction).mp
        (hagrees (allowAction_ne_deny defaultAction) rfl)
  · intro hcondition rule hrule hactive _
    rcases List.mem_append.mp hrule with hmem | hmem
    · rcases hcondition with hdefault | hempty
      · rw [(hallow.uniform rule hmem).2]
        exact (connectAction_allowAction defaultAction).mpr hdefault
      · have hhost := hallow.host_mem hmem
        rw [hempty] at hhost
        exact absurd hhost List.not_mem_nil
    · exact absurd (hdeny.uniform rule hmem).2 hactive

/-! ### What the flags promise -/

/-- One rule for each pattern; a target that only allow patterns match gets the default, and
one that a deny pattern matches best is denied. -/
def Honoured (defaultAction : ConnectAction) (allowHosts denyHosts : List String)
    (allowed denied : List HostMatch) : Prop :=
  ∃ policy, policyFromFlags defaultAction allowHosts denyHosts = .ok policy ∧
    policy.rules.map (·.host) = allowed ++ denied ∧
    ∃ target, policy.toTargetPolicy = .ok target ∧
      ∀ (host : NormalizedHost) (port : UInt16),
        ((∃ pattern ∈ allowed, pattern.matches host = true) →
          (∀ pattern ∈ denied, pattern.matches host = false) →
          target.resolveConnect host port = defaultAction) ∧
        (∀ pattern ∈ denied, pattern.matches host = true →
          (∀ other ∈ allowed, other.matches host = true →
            other.specificity ≤ pattern.specificity) →
          target.resolveConnect host port = .deny)

section

variable {defaultAction : ConnectAction} {allowed denied : List HostMatch}
  {allowRules denyRules : List FileRule} {host : NormalizedHost} {port : UInt16}

theorem admitted_of_only_allowed
    (hallow : FlagRules (allowAction defaultAction) allowed allowRules)
    (hdeny : FlagRules .deny denied denyRules)
    (hmatched : ∃ pattern ∈ allowed, pattern.matches host = true)
    (hnone : ∀ pattern ∈ denied, pattern.matches host = false) :
    Admitted ((allowRules ++ denyRules).map FileRule.toRule) host port .connect := by
  obtain ⟨pattern, hpattern, hmatches⟩ := hmatched
  obtain ⟨rule, hrule, rfl⟩ := hallow.exists_rule hpattern
  refine ⟨rule.toRule, List.mem_map_of_mem (List.mem_append_left _ hrule), ?_, ?_, ?_⟩
  · rw [hallow.matches hrule]
    exact hmatches
  · rw [hallow.ruleAction hrule]
    cases defaultAction with
    | deny => rfl
    | tunnel => rfl
    | intercept => rfl
  · intro other hother hothers hdenies
    obtain ⟨written, hwritten, rfl⟩ := List.mem_map.mp hother
    rcases List.mem_append.mp hwritten with hmem | hmem
    · rw [hallow.ruleAction hmem] at hdenies
      exact absurd (ruleAction_eq_deny.mp hdenies) (allowAction_ne_deny defaultAction)
    · rw [hdeny.matches hmem, hnone _ (hdeny.host_mem hmem)] at hothers
      cases hothers

theorem not_admitted_of_best_denied
    (hallow : FlagRules (allowAction defaultAction) allowed allowRules)
    (hdeny : FlagRules .deny denied denyRules) {pattern : HostMatch} (hpattern : pattern ∈ denied)
    (hmatches : pattern.matches host = true)
    (hbest : ∀ other ∈ allowed, other.matches host = true →
      other.specificity ≤ pattern.specificity) :
    ¬Admitted ((allowRules ++ denyRules).map FileRule.toRule) host port .connect := by
  rintro ⟨winner, hwinner, hwins, hallows, habove⟩
  obtain ⟨rule, hrule, rfl⟩ := hdeny.exists_rule hpattern
  have hless := habove rule.toRule (List.mem_map_of_mem (List.mem_append_right _ hrule))
    (by rw [hdeny.matches hrule]; exact hmatches) (hdeny.ruleAction hrule)
  obtain ⟨written, hwritten, rfl⟩ := List.mem_map.mp hwinner
  rcases List.mem_append.mp hwritten with hmem | hmem
  · rw [hallow.matches hmem] at hwins
    have hle := hbest _ (hallow.host_mem hmem) hwins
    rw [hdeny.specificity hrule, hallow.specificity hmem] at hless
    omega
  · cases (hdeny.ruleAction hmem).symm.trans hallows

end

/-- Flags keep their promise unless a host is allowed under a denying default: then the rules
are refused as mixed. -/
theorem honoured_iff {defaultAction : ConnectAction} {allowHosts denyHosts : List String}
    {allowed denied : List HostMatch} (hallow : List.Forall₂ ValidPattern allowHosts allowed)
    (hdeny : List.Forall₂ ValidPattern denyHosts denied)
    (htotal : allowHosts.length + denyHosts.length ≤ maxPolicyRules) :
    Honoured defaultAction allowHosts denyHosts allowed denied ↔
      defaultAction ≠ .deny ∨ allowHosts = [] := by
  obtain ⟨allowRules, hallowed, hallowRules⟩ :=
    flagRules_of_valid hallow "allow" (allowAction defaultAction)
  obtain ⟨denyRules, hdenied, hdenyRules⟩ := flagRules_of_valid hdeny "deny" .deny
  have hcoherent := flags_coherent_iff hallowRules hdenyRules
  have hempty : allowed = [] ↔ allowHosts = [] := by
    rw [← List.length_eq_zero_iff, ← hallow.length_eq, List.length_eq_zero_iff]
  rw [hempty] at hcoherent
  have hflags : policyFromFlags defaultAction allowHosts denyHosts =
      FilePolicy.checked defaultAction (allowRules ++ denyRules) := by
    rw [policyFromFlags, ensure_of_true htotal, hallowed, hdenied]
    rfl
  rw [← hcoherent]
  constructor
  · rintro ⟨policy, hpolicy, -⟩
    rw [hflags] at hpolicy
    obtain ⟨hdefault, hrules⟩ := checked_eq_ok hpolicy
    rw [← hdefault, ← hrules]
    exact policy.coherent
  · intro hchecked
    have hbounded : (allowRules ++ denyRules).length ≤ maxPolicyRules := by
      have hleft := congrArg List.length hallowRules.hosts
      have hright := congrArg List.length hdenyRules.hosts
      rw [List.length_map, ← hallow.length_eq] at hleft
      rw [List.length_map, ← hdeny.length_eq] at hright
      rw [List.length_append, hleft, hright]
      exact htotal
    obtain ⟨policy, hpolicy⟩ : ∃ policy,
        FilePolicy.checked defaultAction (allowRules ++ denyRules) = .ok policy := by
      rw [FilePolicy.checked]
      split
      · exact ⟨_, rfl⟩
      · rename_i failure hfailure
        cases hchecked.symm.trans hfailure
    obtain ⟨hdefault, hrules⟩ := checked_eq_ok hpolicy
    rw [← hrules] at hbounded
    obtain ⟨target, htarget, htargets, htargetDefault⟩ := toTargetPolicy_of_bounded hbounded
    refine ⟨policy, hflags.trans hpolicy, ?_, target, htarget, ?_⟩
    · rw [hrules, List.map_append, hallowRules.hosts, hdenyRules.hosts]
    · intro host port
      rw [hrules] at htargets
      constructor
      · intro hmatched hnone
        rw [TargetPolicy.resolveConnect, evaluate_eq_verdict, htargets,
          (verdict_eq_allow_iff_admitted _).mpr
            (admitted_of_only_allowed hallowRules hdenyRules hmatched hnone)]
        exact htargetDefault.trans hdefault
      · intro pattern hpattern hmatches hbest
        rw [TargetPolicy.resolveConnect, evaluate_eq_verdict, htargets,
          (verdict_eq_deny_iff _).mpr
            (not_admitted_of_best_denied hallowRules hdenyRules hpattern hmatches hbest)]

theorem validPattern_name : ValidPattern "a.test" (.exactDns "a.test") := by
  constructor
  · decide
  · rfl

/-- One host is allowed under a tunneling default. -/
theorem tunnel_flags_honoured :
    Honoured .tunnel ["a.test"] [] [.exactDns "a.test"] [] ↔
      ConnectAction.tunnel ≠ .deny ∨ ["a.test"] = [] :=
  honoured_iff (.cons validPattern_name .nil) .nil (by decide)

/-- One host is allowed under the default of a flag set that names none. -/
theorem denying_default_refused :
    ¬∀ (defaultAction : ConnectAction) (allowHosts denyHosts : List String)
      (allowed denied : List HostMatch), List.Forall₂ ValidPattern allowHosts allowed →
      List.Forall₂ ValidPattern denyHosts denied →
      allowHosts.length + denyHosts.length ≤ maxPolicyRules →
      Honoured defaultAction allowHosts denyHosts allowed denied := by
  intro h
  obtain ⟨policy, hpolicy, -⟩ := h .deny ["a.test"] [] _ _
    (.cons validPattern_name .nil) .nil (by decide)
  have hrefused : policyFromFlags .deny ["a.test"] [] = .error .mixedActions := by
    rfl
  cases hpolicy.symm.trans hrefused

end EggReplay.Intercept.FlagPolicies
