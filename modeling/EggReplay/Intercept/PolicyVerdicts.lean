import EggReplay.Intercept.TargetPolicies

/-!
What the verdict of a target policy depends on: the rules that match, not their order. Rules
that deny only narrow what is allowed, and rules that allow only widen it.
-/

namespace EggReplay.Intercept.PolicyVerdicts

open EggReplay.Intercept.Hosts
open EggReplay.Intercept.TargetPolicies

section

variable {host : NormalizedHost} {port : UInt16} {kind : RequestKind}

/-- A matching rule allows the target, above every matching rule that denies it. -/
def Admitted (rules : List Rule) (host : NormalizedHost) (port : UInt16) (kind : RequestKind) :
    Prop :=
  ∃ rule ∈ rules, rule.matches host port kind = true ∧ rule.action = .allow ∧
    ∀ other ∈ rules, other.matches host port kind = true → other.action = .deny →
      other.specificity < rule.specificity

theorem verdict_eq_allow_iff_admitted (rules : List Rule) :
    verdict rules host port kind = .allow ↔ Admitted rules host port kind := by
  rw [verdict_eq_allow_iff]
  constructor
  · rintro ⟨rule, hrule, hallow, habove⟩
    obtain ⟨hmem, hmatches⟩ := List.mem_filter.mp hrule
    refine ⟨rule, hmem, hmatches, hallow, ?_⟩
    intro other hother hothers hdeny
    exact habove other (List.mem_filter.mpr ⟨hother, hothers⟩) hdeny
  · rintro ⟨rule, hmem, hmatches, hallow, habove⟩
    refine ⟨rule, List.mem_filter.mpr ⟨hmem, hmatches⟩, hallow, ?_⟩
    intro other hother hdeny
    obtain ⟨hothers, hmatch⟩ := List.mem_filter.mp hother
    exact habove other hothers hmatch hdeny

theorem verdict_eq_deny_iff (rules : List Rule) :
    verdict rules host port kind = .deny ↔ ¬Admitted rules host port kind := by
  rw [← verdict_eq_allow_iff_admitted]
  cases verdict rules host port kind with
  | allow => simp
  | deny => simp

theorem verdict_congr {rules others : List Rule}
    (h : Admitted rules host port kind ↔ Admitted others host port kind) :
    verdict rules host port kind = verdict others host port kind := by
  cases hverdict : verdict others host port kind with
  | allow =>
      rw [verdict_eq_allow_iff_admitted, h, ← verdict_eq_allow_iff_admitted]
      exact hverdict
  | deny =>
      rw [verdict_eq_deny_iff, h, ← verdict_eq_deny_iff]
      exact hverdict

theorem best_unique {rules : List Rule} {score other : Nat} {action second : RuleAction}
    (h : Best rules score action) (hsecond : Best rules other second) : action = second := by
  obtain ⟨rule, hrule, hscore, haction⟩ := h.attained
  obtain ⟨rival, hrival, hother, hrivals⟩ := hsecond.attained
  have hequal : score = other := by
    have hle := hsecond.highest rule hrule
    have hge := h.highest rival hrival
    omega
  subst hequal
  cases action with
  | deny => exact (hsecond.denies rule hrule hscore haction).symm
  | allow =>
      cases second with
      | allow => rfl
      | deny => exact h.denies rival hrival hother hrivals

theorem verdict_of_best {rules : List Rule} {score : Nat} {action : RuleAction}
    (h : Best (matching rules host port kind) score action) :
    verdict rules host port kind = action := by
  rw [verdict]
  rcases foldl_consider rules with ⟨-, hempty⟩ | ⟨best, hbest, hholds⟩
  · rw [hempty] at h
    obtain ⟨rule, hrule, -⟩ := h.attained
    exact absurd hrule List.not_mem_nil
  · rw [hbest]
    exact best_unique hholds h

/-- Where a rule matches, some rule is the best. -/
theorem exists_best {rules : List Rule} {rule : Rule} (hrule : rule ∈ rules)
    (hmatches : rule.matches host port kind = true) :
    ∃ score action, Best (matching rules host port kind) score action := by
  rcases @foldl_consider host port kind rules with ⟨-, hempty⟩ | ⟨best, -, hholds⟩
  · have hmem : rule ∈ matching rules host port kind := List.mem_filter.mpr ⟨hrule, hmatches⟩
    rw [hempty] at hmem
    exact absurd hmem List.not_mem_nil
  · exact ⟨best.1, best.2, hholds⟩

theorem admitted_perm {rules others : List Rule} (h : others.Perm rules) :
    Admitted others host port kind ↔ Admitted rules host port kind := by
  simp only [Admitted, h.mem_iff]

theorem verdict_perm {rules others : List Rule} (h : others.Perm rules) :
    verdict others host port kind = verdict rules host port kind := by
  apply verdict_congr
  exact admitted_perm h

theorem not_admitted_of_unmatched {rules : List Rule}
    (h : ∀ rule ∈ rules, rule.matches host port kind = false) :
    ¬Admitted rules host port kind := by
  rintro ⟨rule, hrule, hmatches, -⟩
  rw [h rule hrule] at hmatches
  cases hmatches

/-- What a further rule that denies lets through was let through before. -/
theorem admitted_of_cons_deny {rules : List Rule} {rule : Rule} (hdeny : rule.action = .deny)
    (h : Admitted (rule :: rules) host port kind) : Admitted rules host port kind := by
  obtain ⟨winner, hwinner, hmatches, hallow, habove⟩ := h
  have hold : winner ∈ rules := by
    rcases List.mem_cons.mp hwinner with rfl | hold
    · cases hdeny.symm.trans hallow
    · exact hold
  refine ⟨winner, hold, hmatches, hallow, ?_⟩
  intro other hother
  exact habove other (List.mem_cons_of_mem rule hother)

/-- A rule that allows takes nothing away. -/
theorem admitted_cons_of_allow {rules : List Rule} {rule : Rule} (hallow : rule.action = .allow)
    (h : Admitted rules host port kind) : Admitted (rule :: rules) host port kind := by
  obtain ⟨winner, hwinner, hmatches, hwins, habove⟩ := h
  refine ⟨winner, List.mem_cons_of_mem rule hwinner, hmatches, hwins, ?_⟩
  intro other hother hothers hdeny
  rcases List.mem_cons.mp hother with rfl | hold
  · cases hallow.symm.trans hdeny
  · exact habove other hold hothers hdeny

theorem verdict_insert_deny {before after : List Rule} {rule : Rule}
    (hdeny : rule.action = .deny) (h : verdict (before ++ after) host port kind = .deny) :
    verdict (before ++ rule :: after) host port kind = .deny := by
  rw [verdict_perm List.perm_middle]
  rw [verdict_eq_deny_iff] at h ⊢
  intro hadmitted
  exact h (admitted_of_cons_deny hdeny hadmitted)

theorem verdict_erase_allow {before after : List Rule} {rule : Rule}
    (hallow : rule.action = .allow)
    (h : verdict (before ++ rule :: after) host port kind = .deny) :
    verdict (before ++ after) host port kind = .deny := by
  rw [verdict_perm List.perm_middle] at h
  rw [verdict_eq_deny_iff] at h ⊢
  intro hadmitted
  exact h (admitted_cons_of_allow hallow hadmitted)

theorem evaluate_eq_verdict (policy : TargetPolicy) :
    policy.evaluate host port kind = verdict policy.rules host port kind :=
  rfl

/-- The verdict on every target is a matter of which rules match and how they score. -/
theorem evaluate_unordered_and_failClosed (policy : TargetPolicy) (host : NormalizedHost)
    (port : UInt16) (kind : RequestKind) :
    (∀ other : TargetPolicy, other.rules.Perm policy.rules →
      other.evaluate host port kind = policy.evaluate host port kind) ∧
    (policy.evaluate host port kind = .allow ↔ Admitted policy.rules host port kind) ∧
    ((∀ rule ∈ policy.rules, rule.matches host port kind = false) →
      policy.evaluate host port kind = .deny) ∧
    (∀ (larger : TargetPolicy) (before after : List Rule) (rule : Rule),
      policy.rules = before ++ after → larger.rules = before ++ rule :: after →
      rule.action = .deny → policy.evaluate host port kind = .deny →
      larger.evaluate host port kind = .deny) ∧
    (∀ (smaller : TargetPolicy) (before after : List Rule) (rule : Rule),
      policy.rules = before ++ rule :: after → smaller.rules = before ++ after →
      rule.action = .allow → policy.evaluate host port kind = .deny →
      smaller.evaluate host port kind = .deny) := by
  simp only [evaluate_eq_verdict]
  refine ⟨?_, ?_, ?_, ?_, ?_⟩
  · intro other hperm
    exact verdict_perm hperm
  · exact verdict_eq_allow_iff_admitted policy.rules
  · intro hunmatched
    exact (verdict_eq_deny_iff policy.rules).mpr (not_admitted_of_unmatched hunmatched)
  · intro larger before after rule hrules hlarger hdeny hverdict
    rw [hrules] at hverdict
    rw [hlarger]
    exact verdict_insert_deny hdeny hverdict
  · intro smaller before after rule hrules hsmaller hallow hverdict
    rw [hrules] at hverdict
    rw [hsmaller]
    exact verdict_erase_allow hallow hverdict

end

end EggReplay.Intercept.PolicyVerdicts
