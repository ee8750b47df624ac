import EggReplay.Core.ScenarioSteps

/-!
Templates as substitution: the placeholders that a scan from the left finds, and a rendering that
puts a value in the place of each and leaves the rest of the text as it is.
-/

namespace EggReplay.Core.TemplateSubstitution

open EggReplay.Library.Checks
open EggReplay.Library.Text
open EggReplay.Core.Scenarios
open EggReplay.Core.ScenarioSteps

/-! ### Placeholders -/

/-- Text up to a pair of opening braces, and what stands between them and the closing ones. -/
@[ext] structure Placeholder where
  lead : List Char
  name : List Char
  deriving DecidableEq, Repr

def Placeholder.source (placeholder : Placeholder) : List Char :=
  placeholder.lead ++ '{' :: '{' :: (placeholder.name ++ ['}', '}'])

/-- The scan of a template: each pair of braces is the first from where the scan stands. -/
structure Scanned (template : List Char) (placeholders : List Placeholder) (last : List Char) :
    Prop where
  text : template = placeholders.flatMap Placeholder.source ++ last
  opened : ∀ placeholder ∈ placeholders, ¬['{', '{'] <:+: placeholder.lead ++ ['{']
  closed : ∀ placeholder ∈ placeholders, ¬['}', '}'] <:+: placeholder.name ++ ['}']
  rest : ¬['{', '{'] <:+: last

def ValidName (name : String) : Prop :=
  name ≠ "" ∧ name.utf8ByteSize ≤ maxNameBytes ∧
    name.toList.all (fun c => c.isAlphanum || c == '_' || c == '-' || c == '.') = true

/-- The name is one that a variable can have, and there is a variable of that name. -/
def Bound (vars : Variables) (placeholder : Placeholder) : Prop :=
  ValidName (String.ofList placeholder.name) ∧
    ∃ value, vars.lookup (String.ofList placeholder.name) = some value

def substituted (vars : Variables) : List Placeholder → List Char → String
  | [], last => String.ofList last
  | placeholder :: rest, last =>
      String.ofList placeholder.lead ++ (vars.lookup (String.ofList placeholder.name)).getD "" ++
        substituted vars rest last

section

variable {vars : Variables} {output : String} {rest last : List Char}
  {placeholder : Placeholder} {placeholders : List Placeholder}

theorem validateName_eq_ok_iff {name label : String} :
    validateName name label = .ok () ↔ ValidName name := ensure_eq_ok

theorem scanned_nil : Scanned rest [] last ↔ rest = last ∧ ¬['{', '{'] <:+: last := by
  constructor
  · intro h
    exact ⟨h.text, h.rest⟩
  · rintro ⟨rfl, hnone⟩
    refine ⟨rfl, ?_, ?_, hnone⟩
    · intro placeholder hmem
      exact absurd hmem List.not_mem_nil
    · intro placeholder hmem
      exact absurd hmem List.not_mem_nil

/-- The first placeholder is what the two searches of a turn find. -/
theorem scanned_cons :
    Scanned rest (placeholder :: placeholders) last ↔ ∃ tail after,
      splitOncePair '{' '{' rest = some (placeholder.lead, tail) ∧
        splitOncePair '}' '}' tail = some (placeholder.name, after) ∧
        Scanned after placeholders last := by
  constructor
  · intro h
    refine ⟨placeholder.name ++ '}' :: '}' :: (placeholders.flatMap Placeholder.source ++ last),
      placeholders.flatMap Placeholder.source ++ last, ?_, ?_, ?_⟩
    · rw [splitOncePair_eq_some_iff]
      refine ⟨?_, h.opened placeholder List.mem_cons_self⟩
      rw [h.text, List.flatMap_cons, Placeholder.source, List.append_assoc, List.append_assoc]
      simp only [List.cons_append, List.append_assoc, List.nil_append]
    · rw [splitOncePair_eq_some_iff]
      exact ⟨rfl, h.closed placeholder List.mem_cons_self⟩
    · exact ⟨rfl, fun other hother => h.opened other (List.mem_cons_of_mem _ hother),
        fun other hother => h.closed other (List.mem_cons_of_mem _ hother), h.rest⟩
  · rintro ⟨tail, after, hstart, hend, h⟩
    rw [splitOncePair_eq_some_iff] at hstart hend
    refine ⟨?_, ?_, ?_, h.rest⟩
    · rw [hstart.1, hend.1, h.text, List.flatMap_cons, Placeholder.source]
      simp only [List.cons_append, List.append_assoc, List.nil_append]
    · rw [List.forall_mem_cons]
      exact ⟨hstart.2, h.opened⟩
    · rw [List.forall_mem_cons]
      exact ⟨hend.2, h.closed⟩

/-- A template is scanned in one way only. -/
theorem scanned_unique {others : List Placeholder} {ending : List Char}
    (h : Scanned rest placeholders last) (hother : Scanned rest others ending) :
    placeholders = others ∧ last = ending := by
  induction placeholders generalizing rest others with
  | nil =>
      obtain ⟨rfl, hnone⟩ := scanned_nil.mp h
      cases others with
      | nil => exact ⟨rfl, (scanned_nil.mp hother).1⟩
      | cons other others =>
          obtain ⟨tail, after, hstart, _⟩ := scanned_cons.mp hother
          rw [splitOncePair_eq_none_iff.mpr hnone] at hstart
          cases hstart
  | cons placeholder placeholders ih =>
      obtain ⟨tail, after, hstart, hend, hrest⟩ := scanned_cons.mp h
      cases others with
      | nil =>
          obtain ⟨rfl, hnone⟩ := scanned_nil.mp hother
          rw [splitOncePair_eq_none_iff.mpr hnone] at hstart
          cases hstart
      | cons other others =>
          obtain ⟨tail', after', hstart', hend', hrest'⟩ := scanned_cons.mp hother
          rw [hstart', Option.some.injEq, Prod.mk.injEq] at hstart
          obtain ⟨hlead, rfl⟩ := hstart
          rw [hend', Option.some.injEq, Prod.mk.injEq] at hend
          obtain ⟨hname, rfl⟩ := hend
          obtain ⟨rfl, hlast⟩ := ih hrest hrest'
          rw [Placeholder.ext hlead.symm hname.symm]
          exact ⟨rfl, hlast⟩

/-! ### Rendering -/

theorem renderFrom_of_none (h : splitOncePair '{' '{' rest = none) :
    renderFrom vars output rest =
      if maxTemplateBytes < (output ++ String.ofList rest).utf8ByteSize then .error templateLimit
      else .ok (output ++ String.ofList rest) := by
  rw [renderFrom]
  split
  · rfl
  · rename_i lead tail hstart
    rw [h] at hstart
    cases hstart

theorem renderFrom_of_some {lead tail name after : List Char} {value : String}
    (hstart : splitOncePair '{' '{' rest = some (lead, tail))
    (hend : splitOncePair '}' '}' tail = some (name, after))
    (hname : ValidName (String.ofList name))
    (hvalue : vars.lookup (String.ofList name) = some value) :
    renderFrom vars output rest =
      if maxTemplateBytes < (output ++ String.ofList lead ++ value).utf8ByteSize then
        .error templateLimit
      else renderFrom vars (output ++ String.ofList lead ++ value) after := by
  rw [renderFrom]
  split
  · rename_i hnone
    rw [hstart] at hnone
    cases hnone
  · rename_i lead' tail' hstart'
    obtain ⟨rfl, rfl⟩ := Prod.mk.inj (Option.some.inj (hstart.symm.trans hstart'))
    split
    · rename_i hnone
      rw [hend] at hnone
      cases hnone
    · rename_i name' after' hend'
      obtain ⟨rfl, rfl⟩ := Prod.mk.inj (Option.some.inj (hend.symm.trans hend'))
      rw [validateName_eq_ok_iff.mpr hname, hvalue]

/-- What a rendering makes of the rest of a template, after the output so far. -/
theorem scanned_of_renderFrom {result : String} (h : renderFrom vars output rest = .ok result) :
    ∃ placeholders last, Scanned rest placeholders last ∧
      (∀ placeholder ∈ placeholders, Bound vars placeholder) ∧
      result = output ++ substituted vars placeholders last ∧
      result.utf8ByteSize ≤ maxTemplateBytes := by
  fun_induction renderFrom vars output rest with
  | case1 => cases h
  | case2 output rest hstart hlimit =>
      cases h
      refine ⟨[], rest, scanned_nil.mpr ⟨rfl, splitOncePair_eq_none_iff.mp hstart⟩, ?_, rfl, ?_⟩
      · intro placeholder hmem
        exact absurd hmem List.not_mem_nil
      · exact Nat.not_lt.mp hlimit
  | case3 => cases h
  | case4 => cases h
  | case5 => cases h
  | case6 => cases h
  | case7 output rest lead tail hstart name after hend hname value hvalue current hlimit ih =>
      obtain ⟨placeholders, last, hscanned, hbound, hresult, hsize⟩ := ih h
      refine ⟨⟨lead, name⟩ :: placeholders, last, ?_, ?_, ?_, hsize⟩
      · exact scanned_cons.mpr ⟨tail, after, hstart, hend, hscanned⟩
      · rw [List.forall_mem_cons]
        exact ⟨⟨validateName_eq_ok_iff.mp hname, value, hvalue⟩, hbound⟩
      · rw [hresult, substituted, hvalue, Option.getD_some, String.append_assoc,
          String.append_assoc, String.append_assoc]

theorem renderFrom_of_scanned (h : Scanned rest placeholders last)
    (hbound : ∀ placeholder ∈ placeholders, Bound vars placeholder)
    (hsize : (output ++ substituted vars placeholders last).utf8ByteSize ≤ maxTemplateBytes) :
    renderFrom vars output rest = .ok (output ++ substituted vars placeholders last) := by
  induction placeholders generalizing output rest with
  | nil =>
      obtain ⟨rfl, hnone⟩ := scanned_nil.mp h
      rw [renderFrom_of_none (splitOncePair_eq_none_iff.mpr hnone), if_neg]
      · rfl
      · exact Nat.not_lt.mpr hsize
  | cons placeholder placeholders ih =>
      rw [List.forall_mem_cons] at hbound
      obtain ⟨⟨hname, value, hvalue⟩, hrest⟩ := hbound
      obtain ⟨tail, after, hstart, hend, hscanned⟩ := scanned_cons.mp h
      have hnext : output ++ substituted vars (placeholder :: placeholders) last =
          output ++ String.ofList placeholder.lead ++ value ++
            substituted vars placeholders last := by
        rw [substituted, hvalue, Option.getD_some, String.append_assoc, String.append_assoc,
          String.append_assoc]
      rw [hnext] at hsize ⊢
      -- the output after a turn is no longer than the whole
      have hturn : ¬maxTemplateBytes <
          (output ++ String.ofList placeholder.lead ++ value).utf8ByteSize := by
        rw [String.utf8ByteSize_append] at hsize
        omega
      rw [renderFrom_of_some hstart hend hname hvalue, if_neg hturn]
      exact ih hscanned hrest hsize

end

/-- Rendering replaces each placeholder by the value of its variable and nothing else; it fails
where the scan does not come through, a name is not bound, or the result is too long. -/
theorem render_eq_ok_iff (template : String) (vars : Variables) (result : String)
    (hsize : template.utf8ByteSize ≤ maxTemplateBytes) :
    render template vars = .ok result ↔ ∃ placeholders last,
      Scanned template.toList placeholders last ∧
        (∀ placeholder ∈ placeholders, Bound vars placeholder) ∧
        result = substituted vars placeholders last ∧
        result.utf8ByteSize ≤ maxTemplateBytes := by
  rw [render, if_neg (Nat.not_lt.mpr hsize)]
  constructor
  · intro h
    obtain ⟨placeholders, last, hscanned, hbound, hresult, hlimit⟩ := scanned_of_renderFrom h
    rw [String.empty_append] at hresult
    exact ⟨placeholders, last, hscanned, hbound, hresult, hlimit⟩
  · rintro ⟨placeholders, last, hscanned, hbound, rfl, hlimit⟩
    rw [← String.empty_append (s := substituted vars placeholders last)] at hlimit
    rw [renderFrom_of_scanned hscanned hbound hlimit, String.empty_append]

/-- A value with braces of its own is put in as it is. -/
theorem render_braces_verbatim :
    render "a\x7b\x7bn\x7d\x7d" [("n", "\x7b\x7bn\x7d\x7d")] = .ok "a\x7b\x7bn\x7d\x7d" := by
  rw [render_eq_ok_iff _ _ _ (by decide)]
  refine ⟨[⟨['a'], ['n']⟩], [], ⟨rfl, ?_, ?_, ?_⟩, ?_, by decide, by decide⟩
  · decide
  · decide
  · decide
  · intro placeholder hmem
    rw [List.mem_singleton.mp hmem]
    exact ⟨⟨by decide, by decide, by decide⟩, _, rfl⟩

end EggReplay.Core.TemplateSubstitution
