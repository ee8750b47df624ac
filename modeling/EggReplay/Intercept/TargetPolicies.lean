import EggReplay.Intercept.Hosts

/-!
The target policy of the intercepting proxy: rules over host, port and kind of request, and
the rule that decides among those that match.
-/

namespace EggReplay.Intercept.TargetPolicies

open EggReplay.Library.Checks
open EggReplay.Library.Text
open EggReplay.Library.IpText
open EggReplay.Intercept.Hosts

def maxPolicyRules : Nat := 128
def maxPortSetSize : Nat := 64

/-! ### Ports -/

inductive PortMatch where
  | exact (port : UInt16)
  | range (first last : UInt16)
  | set (ports : List UInt16)
  | any
  deriving DecidableEq, Repr

def PortMatch.exactFrom (port : UInt16) : Except PolicyError PortMatch := do
  ensure (port ≠ 0) (.invalidPort "port zero is rejected")
  pure (.exact port)

def PortMatch.rangeFrom (first last : UInt16) : Except PolicyError PortMatch := do
  ensure (first ≠ 0 ∧ last ≠ 0) (.invalidPort "port zero is rejected")
  ensure (first ≤ last)
    (.invalidPort ("inverted port range: " ++ Nat.repr first.toNat ++ "-" ++ Nat.repr last.toNat))
  pure (.range first last)

def PortMatch.setFrom (ports : List UInt16) : Except PolicyError PortMatch := do
  ensure (ports ≠ []) (.invalidPort "empty port set")
  ensure (ports.length ≤ maxPortSetSize)
    (.invalidPort ("port set too large: " ++ Nat.repr ports.length))
  ensure ((0 : UInt16) ∉ ports) (.invalidPort "port zero is rejected")
  pure (.set ports)

def PortMatch.matches : PortMatch → UInt16 → Bool
  | .exact expected, port => decide (expected = port)
  | .range first last, port => decide (first ≤ port ∧ port ≤ last)
  | .set ports, port => decide (port ∈ ports)
  | .any, _ => true

/-- A set counts more the fewer entries it lists. -/
def PortMatch.specificity : PortMatch → Nat
  | .exact _ => 300
  | .set ports => 200 + (maxPortSetSize - min ports.length maxPortSetSize)
  | .range _ _ => 100
  | .any => 0

/-! ### Rules -/

inductive RequestKind where
  | plain | connect | any
  deriving DecidableEq, Repr

def RequestKind.covers (kind observed : RequestKind) : Bool :=
  decide (kind = .any ∨ kind = observed)

def RequestKind.specificity : RequestKind → Nat
  | .any => 0
  | .plain | .connect => 10

inductive RuleAction where
  | allow | deny
  deriving DecidableEq, Repr

inductive ConnectAction where
  | deny | tunnel | intercept
  deriving DecidableEq, Repr

structure Rule where
  host : HostMatch
  ports : PortMatch
  kind : RequestKind
  action : RuleAction
  deriving DecidableEq, Repr

def Rule.matches (rule : Rule) (host : NormalizedHost) (port : UInt16) (kind : RequestKind) :
    Bool :=
  rule.host.matches host && rule.ports.matches port && rule.kind.covers kind

def Rule.specificity (rule : Rule) : Nat :=
  rule.host.specificity + rule.ports.specificity + rule.kind.specificity

/-! ### The policy -/

structure TargetPolicy where
  rules : List Rule
  defaultConnectAction : ConnectAction
  bounded : rules.length ≤ maxPolicyRules

def TargetPolicy.new (rules : List Rule) (defaultConnectAction : ConnectAction) :
    Except PolicyError TargetPolicy :=
  if h : rules.length ≤ maxPolicyRules then .ok ⟨rules, defaultConnectAction, h⟩
  else .error (.tooManyRules rules.length)

def TargetPolicy.denyAll (defaultConnectAction : ConnectAction) : TargetPolicy :=
  ⟨[], defaultConnectAction, Nat.zero_le _⟩

/-- The best rule so far against one more that matches. -/
def prefer (rule : Rule) : Option (Nat × RuleAction) → Nat × RuleAction
  | none => (rule.specificity, rule.action)
  | some (bestScore, bestAction) =>
      if bestScore < rule.specificity ∨
          rule.specificity = bestScore ∧ rule.action = .deny ∧ bestAction = .allow then
        (rule.specificity, rule.action)
      else (bestScore, bestAction)

def consider (host : NormalizedHost) (port : UInt16) (kind : RequestKind)
    (best : Option (Nat × RuleAction)) (rule : Rule) : Option (Nat × RuleAction) :=
  if rule.matches host port kind = true then some (prefer rule best) else best

def TargetPolicy.evaluate (policy : TargetPolicy) (host : NormalizedHost) (port : UInt16)
    (kind : RequestKind) : RuleAction :=
  match policy.rules.foldl (consider host port kind) none with
  | none => .deny
  | some (_, action) => action

def TargetPolicy.allowsPlain (policy : TargetPolicy) (host : NormalizedHost) (port : UInt16) :
    Bool :=
  decide (policy.evaluate host port .plain = .allow)

def TargetPolicy.resolveConnect (policy : TargetPolicy) (host : NormalizedHost)
    (port : UInt16) : ConnectAction :=
  match policy.evaluate host port .connect with
  | .deny => .deny
  | .allow => policy.defaultConnectAction

/-! ### The rule that decides -/

section

variable {host : NormalizedHost} {port : UInt16} {kind : RequestKind}

def matching (rules : List Rule) (host : NormalizedHost) (port : UInt16) (kind : RequestKind) :
    List Rule :=
  rules.filter fun rule => rule.matches host port kind

/-- The best of the rules: of the highest score, and denying where one of that score does. -/
structure Best (rules : List Rule) (score : Nat) (action : RuleAction) : Prop where
  attained : ∃ rule ∈ rules, rule.specificity = score ∧ rule.action = action
  highest : ∀ rule ∈ rules, rule.specificity ≤ score
  denies : ∀ rule ∈ rules, rule.specificity = score → rule.action = .deny → action = .deny

theorem Best.prefer {rules : List Rule} {best : Nat × RuleAction}
    (h : Best rules best.1 best.2) (rule : Rule) :
    Best (rules ++ [rule]) (prefer rule (some best)).1 (prefer rule (some best)).2 := by
  obtain ⟨score, action⟩ := best
  obtain ⟨attaining, hattaining, hscore, haction⟩ := h.attained
  have hnew : rule ∈ rules ++ [rule] := List.mem_append_right _ List.mem_cons_self
  rw [TargetPolicies.prefer]
  split
  · rename_i hbetter
    have hle : score ≤ rule.specificity := by
      rcases hbetter with hless | ⟨heq, -, -⟩
      · exact Nat.le_of_lt hless
      · exact Nat.le_of_eq heq.symm
    refine ⟨⟨rule, hnew, rfl, rfl⟩, ?_, ?_⟩
    · intro other hother
      rcases List.mem_append.mp hother with hold | hlast
      · exact (h.highest other hold).trans hle
      · rw [List.mem_singleton.mp hlast]
    · intro other hother hequal hdeny
      rcases List.mem_append.mp hother with hold | hlast
      · rcases hbetter with hless | ⟨-, hdenies, -⟩
        · have hbound := h.highest other hold
          dsimp only at hbound hequal hless
          omega
        · exact hdenies
      · rw [List.mem_singleton.mp hlast] at hdeny
        exact hdeny
  · rename_i hworse
    push Not at hworse
    refine ⟨⟨attaining, List.mem_append_left _ hattaining, hscore, haction⟩, ?_, ?_⟩
    · intro other hother
      rcases List.mem_append.mp hother with hold | hlast
      · exact h.highest other hold
      · rw [List.mem_singleton.mp hlast]
        exact hworse.1
    · intro other hother hequal hdeny
      rcases List.mem_append.mp hother with hold | hlast
      · exact h.denies other hold hequal hdeny
      · rw [List.mem_singleton.mp hlast] at hequal hdeny
        have hkept := hworse.2 hequal hdeny
        dsimp only at hkept ⊢
        cases action with
        | allow => exact absurd rfl hkept
        | deny => rfl

theorem best_singleton (rule : Rule) : Best [rule] rule.specificity rule.action := by
  refine ⟨⟨rule, List.mem_cons_self, rfl, rfl⟩, ?_, ?_⟩
  · intro other hother
    rw [List.mem_singleton.mp hother]
  · intro other hother _ hdeny
    rwa [List.mem_singleton.mp hother] at hdeny

/-- The loop over the rules keeps the best of those that match. -/
theorem foldl_consider (rules : List Rule) :
    (rules.foldl (consider host port kind) none = none ∧ matching rules host port kind = []) ∨
      ∃ best, rules.foldl (consider host port kind) none = some best ∧
        Best (matching rules host port kind) best.1 best.2 := by
  induction rules using List.reverseRecOn with
  | nil => exact .inl ⟨rfl, rfl⟩
  | append_singleton before rule ih =>
      have hmatching : matching (before ++ [rule]) host port kind =
          matching before host port kind ++
            if rule.matches host port kind = true then [rule] else [] := by
        rw [matching, List.filter_append, List.filter_singleton, Bool.cond_eq_ite]
        rfl
      rw [List.foldl_append, List.foldl_cons, List.foldl_nil, hmatching, consider]
      by_cases hrule : rule.matches host port kind = true
      · rw [if_pos hrule, if_pos hrule]
        right
        refine ⟨_, rfl, ?_⟩
        rcases ih with ⟨hnone, hempty⟩ | ⟨best, hbest, hholds⟩
        · rw [hnone, hempty, List.nil_append]
          exact best_singleton rule
        · rw [hbest]
          exact hholds.prefer rule
      · rw [if_neg hrule, if_neg hrule, List.append_nil]
        exact ih

/-- The loop over any rules, as many as they may be. -/
def verdict (rules : List Rule) (host : NormalizedHost) (port : UInt16) (kind : RequestKind) :
    RuleAction :=
  match rules.foldl (consider host port kind) none with
  | none => .deny
  | some (_, action) => action

/-- A target is allowed by a matching rule that allows it and scores above every matching
rule that denies it. -/
theorem verdict_eq_allow_iff (rules : List Rule) :
    verdict rules host port kind = .allow ↔
      ∃ rule ∈ matching rules host port kind, rule.action = .allow ∧
        ∀ other ∈ matching rules host port kind, other.action = .deny →
          other.specificity < rule.specificity := by
  rw [verdict]
  rcases foldl_consider rules with ⟨hnone, hempty⟩ | ⟨⟨score, action⟩, hbest, hholds⟩
  · rw [hnone, hempty]
    refine iff_of_false (by decide) ?_
    rintro ⟨rule, hrule, -⟩
    exact absurd hrule List.not_mem_nil
  · rw [hbest]
    dsimp only
    dsimp only at hholds
    obtain ⟨attaining, hattaining, hscore, haction⟩ := hholds.attained
    constructor
    · intro hallow
      refine ⟨attaining, hattaining, haction.trans hallow, ?_⟩
      intro other hother hdeny
      have hbound := hholds.highest other hother
      have hne : other.specificity ≠ score := by
        intro hequal
        cases (hholds.denies other hother hequal hdeny).symm.trans hallow
      omega
    · rintro ⟨rule, hrule, hallow, habove⟩
      cases action with
      | allow => rfl
      | deny =>
          have hless := habove attaining hattaining haction
          have hbound := hholds.highest rule hrule
          omega

theorem evaluate_eq_allow_iff (policy : TargetPolicy) :
    policy.evaluate host port kind = .allow ↔
      ∃ rule ∈ matching policy.rules host port kind, rule.action = .allow ∧
        ∀ other ∈ matching policy.rules host port kind, other.action = .deny →
          other.specificity < rule.specificity :=
  verdict_eq_allow_iff policy.rules

end

/-! ### Narrower rules -/

/-- The targets of one rule are some of those of another. -/
def Narrower (narrow wide : Rule) : Prop :=
  (∀ host port kind, narrow.matches host port kind = true →
    wide.matches host port kind = true) ∧
  ∃ host port kind, wide.matches host port kind = true ∧
    narrow.matches host port kind = false

/-- The ports of the wider rule do not count for more than host and kind of the narrower one
make up for; where they count for as much, the narrower one denies. -/
def Prevails (narrow wide : Rule) : Prop :=
  let gain := (narrow.host.specificity - wide.host.specificity) +
    (narrow.kind.specificity - wide.kind.specificity)
  wide.ports.specificity < narrow.ports.specificity + gain ∨
    wide.ports.specificity = narrow.ports.specificity + gain ∧ narrow.action = .deny

instance (narrow wide : Rule) : Decidable (Prevails narrow wide) :=
  inferInstanceAs (Decidable (_ ∨ _))

theorem endsWith_size {s tail : String} (h : endsWith s tail = true) :
    tail.utf8ByteSize ≤ s.utf8ByteSize := by
  obtain ⟨lead, hlead⟩ := List.isSuffixOf_iff_suffix.mp h
  have hs : s = String.ofList lead ++ tail := by
    rw [← String.toList_inj, String.toList_append, String.toList_ofList, hlead]
  rw [hs, String.utf8ByteSize_append]
  exact Nat.le_add_left _ _

theorem endsWith_append (lead tail : String) : endsWith (lead ++ tail) tail = true := by
  rw [endsWith, List.isSuffixOf_iff_suffix, String.toList_append]
  exact List.suffix_append _ _

/-- A host pattern with fewer hosts counts for at least as much. -/
theorem host_specificity_le {narrow wide : HostMatch}
    (h : ∀ host, narrow.matches host = true → wide.matches host = true) :
    wide.specificity ≤ narrow.specificity := by
  cases narrow with
  | exactIp pattern =>
      cases wide with
      | exactIp _ => exact Nat.le_refl _
      | exactDns _ => exact (by decide : 2000 ≤ 3000)
      | suffixDns parent =>
          have hmin := Nat.min_le_right parent.utf8ByteSize 253
          show 1000 + min parent.utf8ByteSize 253 ≤ 3000
          omega
  | exactDns pattern =>
      have hself := h (.dns pattern) (decide_eq_true rfl)
      cases wide with
      | exactIp _ => cases hself
      | exactDns _ => exact Nat.le_refl _
      | suffixDns parent =>
          have hmin := Nat.min_le_right parent.utf8ByteSize 253
          show 1000 + min parent.utf8ByteSize 253 ≤ 2000
          omega
  | suffixDns parent =>
      have hparent := h (.dns parent) (by simp [HostMatch.matches])
      cases wide with
      | exactIp _ => cases hparent
      | exactDns pattern =>
          -- the name below the parent is matched too, and is another one
          have hbelow := h (.dns ("." ++ parent)) (by
            have htail : endsWith ("." ++ parent) ("." ++ parent) = true :=
              endsWith_append "" ("." ++ parent)
            simp [HostMatch.matches, htail])
          have hsame : parent = "." ++ parent :=
            (of_decide_eq_true hparent).symm.trans (of_decide_eq_true hbelow)
          have hsize := congrArg String.utf8ByteSize hsame
          rw [String.utf8ByteSize_append] at hsize
          have hdot : ".".utf8ByteSize = 1 := rfl
          omega
      | suffixDns other =>
          have hsize : other.utf8ByteSize ≤ parent.utf8ByteSize := by
            rw [HostMatch.matches, Bool.or_eq_true, decide_eq_true_eq] at hparent
            rcases hparent with rfl | hparent
            · exact Nat.le_refl _
            · have htail := endsWith_size hparent
              rw [String.utf8ByteSize_append] at htail
              omega
          show 1000 + min other.utf8ByteSize 253 ≤ 1000 + min parent.utf8ByteSize 253
          omega

/-- A kind with fewer requests counts for at least as much. -/
theorem kind_specificity_le {narrow wide : RequestKind}
    (h : ∀ observed, narrow.covers observed = true → wide.covers observed = true) :
    wide.specificity ≤ narrow.specificity := by
  cases narrow with
  | plain =>
      cases wide with
      | any => exact Nat.zero_le _
      | plain => exact Nat.le_refl _
      | connect => exact Nat.le_refl _
  | connect =>
      cases wide with
      | any => exact Nat.zero_le _
      | plain => exact Nat.le_refl _
      | connect => exact Nat.le_refl _
  | any =>
      have hall := h .any rfl
      cases wide with
      | any => exact Nat.le_refl _
      | plain => cases hall
      | connect => cases hall

theorem Rule.matches_iff {rule : Rule} {host : NormalizedHost} {port : UInt16}
    {kind : RequestKind} : rule.matches host port kind = true ↔
      (rule.host.matches host = true ∧ rule.ports.matches port = true) ∧
        rule.kind.covers kind = true := by
  rw [Rule.matches, Bool.and_eq_true, Bool.and_eq_true]

section

variable {host : NormalizedHost} {port : UInt16} {kind : RequestKind} {narrow wide : Rule}

/-- Only by its ports can a narrower rule count for less. -/
theorem prevails_iff (hnarrower : Narrower narrow wide)
    (hmatches : narrow.matches host port kind = true) :
    Prevails narrow wide ↔ wide.specificity < narrow.specificity ∨
      wide.specificity = narrow.specificity ∧ narrow.action = .deny := by
  obtain ⟨⟨hhost, hport⟩, hkind⟩ := Rule.matches_iff.mp hmatches
  have hhosts : wide.host.specificity ≤ narrow.host.specificity := by
    apply host_specificity_le
    intro other hother
    have hboth := hnarrower.1 other port kind (Rule.matches_iff.mpr ⟨⟨hother, hport⟩, hkind⟩)
    exact (Rule.matches_iff.mp hboth).1.1
  have hkinds : wide.kind.specificity ≤ narrow.kind.specificity := by
    apply kind_specificity_le
    intro other hother
    have hboth := hnarrower.1 host port other (Rule.matches_iff.mpr ⟨⟨hhost, hport⟩, hother⟩)
    exact (Rule.matches_iff.mp hboth).2
  rw [Prevails, Rule.specificity, Rule.specificity]
  constructor
  · rintro (hless | ⟨hequal, hdeny⟩)
    · exact .inl (by omega)
    · exact .inr ⟨by omega, hdeny⟩
  · rintro (hless | ⟨hequal, hdeny⟩)
    · exact .inl (by omega)
    · exact .inr ⟨by omega, hdeny⟩

/-- Of two rules that alone match a target, the narrower one decides exactly where it
prevails. -/
theorem narrower_decides_iff {policy : TargetPolicy} (hnarrow : narrow ∈ policy.rules)
    (hwide : wide ∈ policy.rules) (hmatches : narrow.matches host port kind = true)
    (hopposite : narrow.action ≠ wide.action) (hnarrower : Narrower narrow wide)
    (honly : ∀ rule ∈ policy.rules, rule.matches host port kind = true →
      rule = narrow ∨ rule = wide) :
    policy.evaluate host port kind = narrow.action ↔ Prevails narrow wide := by
  have hwidely : wide.matches host port kind = true := hnarrower.1 host port kind hmatches
  have hmem : ∀ rule, rule ∈ matching policy.rules host port kind ↔
      rule = narrow ∨ rule = wide := by
    intro rule
    rw [matching, List.mem_filter]
    constructor
    · rintro ⟨hrule, hmatch⟩
      exact honly rule hrule hmatch
    · rintro (rfl | rfl)
      · exact ⟨hnarrow, hmatches⟩
      · exact ⟨hwide, hwidely⟩
  have hallow := @evaluate_eq_allow_iff host port kind policy
  simp only [hmem] at hallow
  rw [prevails_iff hnarrower hmatches]
  rcases hnarrows : narrow.action with _ | _
  · have hdenies : wide.action = .deny := by
      cases hwides : wide.action with
      | allow => exact absurd (hnarrows.trans hwides.symm) hopposite
      | deny => rfl
    rw [hallow]
    constructor
    · rintro ⟨rule, rfl | rfl, hrule, habove⟩
      · exact .inl (habove wide (.inr rfl) hdenies)
      · cases hrule.symm.trans hdenies
    · rintro (hless | ⟨-, hdeny⟩)
      · refine ⟨narrow, .inl rfl, hnarrows, ?_⟩
        rintro other (rfl | rfl) hother
        · cases hnarrows.symm.trans hother
        · exact hless
      · cases hdeny
  · have hallows : wide.action = .allow := by
      cases hwides : wide.action with
      | allow => rfl
      | deny => exact absurd (hnarrows.trans hwides.symm) hopposite
    have hdeny : policy.evaluate host port kind = .deny ↔
        ¬policy.evaluate host port kind = .allow := by
      cases policy.evaluate host port kind with
      | allow => decide
      | deny => decide
    rw [hdeny, hallow]
    constructor
    · intro hnone
      by_contra hlower
      push Not at hlower
      apply hnone
      refine ⟨wide, .inr rfl, hallows, ?_⟩
      rintro other (rfl | rfl) hother
      · have hne : wide.specificity ≠ other.specificity := fun hequal => hlower.2 hequal rfl
        omega
      · cases hallows.symm.trans hother
    · rintro hprevails ⟨rule, rfl | rfl, hrule, habove⟩
      · cases hnarrows.symm.trans hrule
      · have hless := habove narrow (.inl rfl) hnarrows
        omega

end

/-! ### Ranges of ports -/

def exampleRule (ports : PortMatch) (action : RuleAction) : Rule where
  host := .exactDns "example.test"
  ports := ports
  kind := .connect
  action := action

/-- Some ports of a host are allowed, and a range of them denied. -/
def nestedPolicy (ports : PortMatch) : TargetPolicy where
  rules := [exampleRule ports .allow, exampleRule (.range 1 1000) .deny]
  defaultConnectAction := .tunnel
  bounded := by
    show 2 ≤ 128
    decide

theorem exampleRule_narrower {narrow wide : PortMatch} {left right : RuleAction}
    (h : ∀ port, narrow.matches port = true → wide.matches port = true) (other : UInt16)
    (hwide : wide.matches other = true) (hnarrow : narrow.matches other = false) :
    Narrower (exampleRule narrow left) (exampleRule wide right) := by
  refine ⟨?_, .dns "example.test", other, .connect, ?_, ?_⟩
  · intro host port kind hmatches
    obtain ⟨⟨hhost, hport⟩, hkind⟩ := Rule.matches_iff.mp hmatches
    exact Rule.matches_iff.mpr ⟨⟨hhost, h port hport⟩, hkind⟩
  · have hhost : (HostMatch.exactDns "example.test").matches (.dns "example.test") = true := by
      decide
    exact Rule.matches_iff.mpr ⟨⟨hhost, hwide⟩, rfl⟩
  · rw [Rule.matches]
    show (_ && narrow.matches other && _) = false
    rw [hnarrow, Bool.and_false, Bool.false_and]

theorem mem_nestedPolicy {ports : PortMatch} {rule : Rule}
    (h : rule ∈ (nestedPolicy ports).rules) :
    rule = exampleRule ports .allow ∨ rule = exampleRule (.range 1 1000) .deny := by
  rcases List.mem_cons.mp h with rfl | h
  · exact .inl rfl
  · exact .inr (List.mem_singleton.mp h)

/-- One port inside the range is allowed. -/
theorem exact_port_decides :
    (nestedPolicy (.exact 443)).evaluate (.dns "example.test") 443 .connect =
        (exampleRule (.exact 443) .allow).action ↔
      Prevails (exampleRule (.exact 443) .allow) (exampleRule (.range 1 1000) .deny) := by
  have hnarrower : Narrower (exampleRule (.exact 443) .allow)
      (exampleRule (.range 1 1000) .deny) := by
    apply exampleRule_narrower _ 1 (by decide) (by decide)
    intro port hport
    rw [← of_decide_eq_true hport]
    decide
  have hfirst : exampleRule (.exact 443) .allow ∈ (nestedPolicy (.exact 443)).rules :=
    List.mem_cons_self
  have hsecond : exampleRule (.range 1 1000) .deny ∈ (nestedPolicy (.exact 443)).rules :=
    List.mem_cons_of_mem _ List.mem_cons_self
  exact narrower_decides_iff hfirst hsecond (by decide) (by decide) hnarrower
    fun rule hrule _ => mem_nestedPolicy hrule

/-- A range inside the range counts for as much, and denying wins. -/
theorem nested_range_overruled :
    ¬∀ (policy : TargetPolicy) (host : NormalizedHost) (port : UInt16) (kind : RequestKind)
      (narrow wide : Rule), narrow ∈ policy.rules → wide ∈ policy.rules →
      narrow.matches host port kind = true → narrow.action ≠ wide.action →
      Narrower narrow wide →
      (∀ rule ∈ policy.rules, rule.matches host port kind = true →
        rule = narrow ∨ rule = wide) →
      policy.evaluate host port kind = narrow.action := by
  intro h
  have hnarrower : Narrower (exampleRule (.range 400 500) .allow)
      (exampleRule (.range 1 1000) .deny) := by
    apply exampleRule_narrower _ 1 (by decide) (by decide)
    intro port hport
    have hbounds : 400 ≤ port ∧ port ≤ 500 := of_decide_eq_true hport
    have hlow : (1 : UInt16) ≤ 400 := by decide
    have hhigh : (500 : UInt16) ≤ 1000 := by decide
    exact decide_eq_true ⟨UInt16.le_trans hlow hbounds.1, UInt16.le_trans hbounds.2 hhigh⟩
  have hallow := h (nestedPolicy (.range 400 500)) (.dns "example.test") 443 .connect _ _
    List.mem_cons_self (List.mem_cons_of_mem _ List.mem_cons_self) (by decide) (by decide)
    hnarrower fun rule hrule _ => mem_nestedPolicy hrule
  exact absurd hallow (by decide)

end EggReplay.Intercept.TargetPolicies
