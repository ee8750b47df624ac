import EggReplay.Intercept.Authorities

/-!
The filter of hop-by-hop fields as its loop runs: over a map of names to values whose iterator
names only the first value of each. What is forwarded, what is removed, and what a second
filtering changes.
-/

namespace EggReplay.Intercept.HeaderFiltering

open EggReplay.Http.Transaction
open EggReplay.Intercept.Authorities (tokens classify proxyOnly)
open EggReplay.Library.Text

/-! ### Header maps -/

/-- A name with its values; there is a first one. -/
structure Bucket where
  name : String
  first : Bytes
  more : List Bytes
  deriving DecidableEq, Repr

def Bucket.values (bucket : Bucket) : List Bytes := bucket.first :: bucket.more

/-- What an iterator yields of a name: the name comes with the first value only. -/
def Bucket.items (bucket : Bucket) : List (Option String × Bytes) :=
  (some bucket.name, bucket.first) :: bucket.more.map fun value => (none, value)

def appendValue (name : String) (value : Bytes) : List Bucket → List Bucket
  | [] => [{ name, first := value, more := [] }]
  | bucket :: rest =>
      if bucket.name = name then { bucket with more := bucket.more ++ [value] } :: rest
      else bucket :: appendValue name value rest

def names (buckets : List Bucket) : List String := buckets.map Bucket.name

@[simp] theorem names_cons (bucket : Bucket) (rest : List Bucket) :
    names (bucket :: rest) = bucket.name :: names rest := rfl

theorem names_appendValue (name : String) (value : Bytes) (buckets : List Bucket) :
    names (appendValue name value buckets) =
      if name ∈ names buckets then names buckets else names buckets ++ [name] := by
  induction buckets with
  | nil => rfl
  | cons bucket rest ih =>
      rw [appendValue, names_cons]
      split
      · rename_i hname
        rw [names_cons, hname, if_pos List.mem_cons_self]
      · rename_i hname
        rw [names_cons, ih]
        by_cases hmem : name ∈ names rest
        · rw [if_pos hmem, if_pos (List.mem_cons_of_mem _ hmem)]
        · have hneither : name ∉ bucket.name :: names rest := by
            rw [List.mem_cons, not_or]
            exact ⟨fun heq => hname heq.symm, hmem⟩
          rw [if_neg hmem, if_neg hneither]
          rfl

/-- Names are lowercase, and each stands once. -/
structure HeaderBuckets where
  buckets : List Bucket
  distinct : (names buckets).Nodup
  lower : ∀ name ∈ names buckets, toAsciiLowercase name = name

def HeaderBuckets.empty : HeaderBuckets where
  buckets := []
  distinct := List.nodup_nil
  lower _ hname := absurd hname List.not_mem_nil

theorem distinct_appendValue {buckets : List Bucket} (h : (names buckets).Nodup) (name : String)
    (value : Bytes) : (names (appendValue name value buckets)).Nodup := by
  rw [names_appendValue]
  split
  · exact h
  · rename_i hname
    rw [List.nodup_append]
    refine ⟨h, List.nodup_singleton name, ?_⟩
    intro other hother last hlast heq
    rw [heq, List.mem_singleton.mp hlast] at hother
    exact hname hother

theorem lower_appendValue {buckets : List Bucket}
    (h : ∀ name ∈ names buckets, toAsciiLowercase name = name) {name : String}
    (hname : toAsciiLowercase name = name) (value : Bytes) :
    ∀ other ∈ names (appendValue name value buckets), toAsciiLowercase other = other := by
  intro other hother
  rw [names_appendValue] at hother
  split at hother
  · exact h other hother
  · rcases List.mem_append.mp hother with hold | hnew
    · exact h other hold
    · rw [List.mem_singleton.mp hnew]
      exact hname

/-- `HeaderMap::append`; a `HeaderName` is lowercase. -/
def HeaderBuckets.append (headers : HeaderBuckets) (name : String) (value : Bytes) :
    HeaderBuckets where
  buckets := appendValue (toAsciiLowercase name) value headers.buckets
  distinct := distinct_appendValue headers.distinct _ value
  lower := lower_appendValue headers.lower (toAsciiLowercase_idem name) value

theorem append_buckets (headers : HeaderBuckets) (name : String) (value : Bytes) :
    (headers.append name value).buckets =
      appendValue (toAsciiLowercase name) value headers.buckets := rfl

def HeaderBuckets.ofFields (fields : List HeaderField) : HeaderBuckets :=
  fields.foldl (fun headers field => headers.append field.name field.value) .empty

def getAll (buckets : List Bucket) (name : String) : List Bytes :=
  (buckets.filter fun bucket => decide (bucket.name = name)).flatMap Bucket.values

/-- `HeaderMap::into_iter`. -/
def HeaderBuckets.intoIter (headers : HeaderBuckets) : List (Option String × Bytes) :=
  headers.buckets.flatMap Bucket.items

/-! ### The filter -/

@[ext] structure ProxyFilterOutcome where
  forwarded : HeaderBuckets
  removed : List String
  upgradeRequested : Bool
  hadProxyAuthorization : Bool

/-- One token of a Connection value. -/
def nominate (found : Bool × List String) (token : String) : Bool × List String :=
  (found.1 || decide (token = "upgrade"),
    if token ∈ found.2 then found.2 else found.2 ++ [token])

/-- Whether an upgrade is nominated, and all that is. -/
def nominations (headers : HeaderBuckets) : Bool × List String :=
  ((getAll headers.buckets "connection").flatMap fun value =>
    (tokens ((toStr value).getD "")).map toAsciiLowercase).foldl nominate (false, [])

def teForward (headers : HeaderBuckets) : Bool :=
  let teTokens := ((getAll headers.buckets "te").filterMap toStr).flatMap tokens
  decide (teTokens ≠ []) && teTokens.all fun token => eqIgnoreAsciiCase token "trailers"

structure FilterState where
  forwarded : HeaderBuckets
  removed : List String
  upgradeRequested : Bool
  hadProxyAuthorization : Bool
  current : Option (String × Bool)

def pushRemoved (removed : List String) (name : String) : List String :=
  if name ∈ removed then removed else removed ++ [name]

def applySideEffects (lower : String) (state : FilterState) : FilterState :=
  { state with
    upgradeRequested := state.upgradeRequested || decide (lower = "upgrade")
    hadProxyAuthorization := state.hadProxyAuthorization || decide (lower = "proxy-authorization")
    removed := pushRemoved state.removed lower }

/-- The first value of a name decides for the values that follow it. -/
def decideName (te : Bool) (nominated : List String) (state : FilterState) :
    Option String → FilterState
  | none => state
  | some name =>
      let lower := toAsciiLowercase name
      let forward := classify lower te nominated
      let state := if forward = true then state else applySideEffects lower state
      { state with current := some (name, forward) }

def forwardValue (state : FilterState) (value : Bytes) : FilterState :=
  match state.current with
  | some (name, true) => { state with forwarded := state.forwarded.append name value }
  | some (_, false) | none => state

def filterStep (te : Bool) (nominated : List String) (state : FilterState)
    (item : Option String × Bytes) : FilterState :=
  forwardValue (decideName te nominated state item.1) item.2

def filterProxyHeaders (headers : HeaderBuckets) : ProxyFilterOutcome :=
  let nominated := nominations headers
  let final := headers.intoIter.foldl (filterStep (teForward headers) nominated.2)
    { forwarded := .empty
      removed := []
      upgradeRequested := nominated.1
      hadProxyAuthorization := false
      current := none }
  { forwarded := final.forwarded
    removed := final.removed
    upgradeRequested := final.upgradeRequested
    hadProxyAuthorization := final.hadProxyAuthorization }

/-! ### The values of a name -/

section

variable {name other : String} {value : Bytes} {buckets : List Bucket}

theorem getAll_cons (bucket : Bucket) (rest : List Bucket) (name : String) :
    getAll (bucket :: rest) name =
      (if bucket.name = name then bucket.values else []) ++ getAll rest name := by
  rw [getAll, List.filter_cons]
  by_cases hname : bucket.name = name
  · rw [if_pos (decide_eq_true hname), if_pos hname, List.flatMap_cons]
    rfl
  · rw [if_neg (by simpa using hname), if_neg hname]
    rfl

theorem getAll_of_not_mem (h : name ∉ names buckets) : getAll buckets name = [] := by
  have hnone : buckets.filter (fun bucket => decide (bucket.name = name)) = [] := by
    rw [List.filter_eq_nil_iff]
    intro bucket hbucket hname
    exact h (List.mem_map.mpr ⟨bucket, hbucket, of_decide_eq_true hname⟩)
  rw [getAll, hnone]
  rfl

theorem getAll_ne_nil_iff : getAll buckets name ≠ [] ↔ name ∈ names buckets := by
  constructor
  · intro h
    by_contra hname
    exact h (getAll_of_not_mem hname)
  · intro hname
    obtain ⟨bucket, hbucket, rfl⟩ := List.mem_map.mp hname
    apply List.ne_nil_of_mem (a := bucket.first)
    exact List.mem_flatMap.mpr ⟨bucket, List.mem_filter.mpr ⟨hbucket, decide_eq_true rfl⟩,
      List.mem_cons_self⟩

theorem getAll_appendValue (h : (names buckets).Nodup) (name other : String) (value : Bytes) :
    getAll (appendValue name value buckets) other =
      getAll buckets other ++ if name = other then [value] else [] := by
  induction buckets with
  | nil =>
      rw [appendValue, getAll_cons]
      split
      · rfl
      · rfl
  | cons bucket rest ih =>
      rw [names_cons, List.nodup_cons] at h
      rw [appendValue]
      split
      · rename_i hname
        rw [getAll_cons, getAll_cons]
        dsimp only
        by_cases hother : name = other
        · have hrest : getAll rest other = [] := by
            apply getAll_of_not_mem
            rw [← hother, ← hname]
            exact h.1
          rw [if_pos hother, hname, if_pos hother, if_pos hother, hrest, List.append_nil,
            List.append_nil]
          rfl
        · rw [if_neg hother, hname, if_neg hother, if_neg hother, List.append_nil]
      · rw [getAll_cons, getAll_cons, ih h.2, List.append_assoc]

/-- The values of the fields of a name, in whatever case they spell it. -/
def valuesOf (fields : List HeaderField) (name : String) : List Bytes :=
  (fields.filter fun field => decide (toAsciiLowercase field.name = name)).map HeaderField.value

theorem getAll_ofFields (fields : List HeaderField) (name : String) :
    getAll (HeaderBuckets.ofFields fields).buckets name = valuesOf fields name := by
  induction fields using List.reverseRecOn with
  | nil => rfl
  | append_singleton before field ih =>
      have hlast : (HeaderBuckets.ofFields (before ++ [field])).buckets =
          appendValue (toAsciiLowercase field.name) field.value
            (HeaderBuckets.ofFields before).buckets := by
        rw [HeaderBuckets.ofFields, List.foldl_append]
        rfl
      rw [hlast, getAll_appendValue (HeaderBuckets.ofFields before).distinct, ih, valuesOf,
        valuesOf, List.filter_append, List.map_append, List.filter_singleton]
      congr 1
      by_cases hname : toAsciiLowercase field.name = name
      · rw [if_pos hname, decide_eq_true hname]
        rfl
      · rw [if_neg hname, decide_eq_false hname]
        rfl

end

/-! ### The loop -/

section

variable {te : Bool} {nominated : List String}

def Forwards (te : Bool) (nominated : List String) (bucket : Bucket) : Bool :=
  classify bucket.name te nominated

theorem appendValue_new {buckets : List Bucket} {bucket : Bucket}
    (h : bucket.name ∉ names buckets) (value : Bytes) :
    appendValue bucket.name value (buckets ++ [bucket]) =
      buckets ++ [{ bucket with more := bucket.more ++ [value] }] := by
  induction buckets with
  | nil =>
      rw [List.nil_append, appendValue, if_pos rfl]
      rfl
  | cons head rest ih =>
      rw [names_cons, List.mem_cons, not_or] at h
      rw [List.cons_append, appendValue, if_neg fun heq => h.1 heq.symm, ih h.2]
      rfl

theorem appendValue_absent {buckets : List Bucket} {name : String} (h : name ∉ names buckets)
    (value : Bytes) :
    appendValue name value buckets = buckets ++ [{ name, first := value, more := [] }] := by
  induction buckets with
  | nil => rfl
  | cons head rest ih =>
      rw [names_cons, List.mem_cons, not_or] at h
      rw [appendValue, if_neg fun heq => h.1 heq.symm, ih h.2]
      rfl

/-- What a part of the loop adds: buckets that are forwarded and names that are removed. -/
structure Ran (state final : FilterState) (kept : List Bucket) (gone : List String) : Prop where
  forwarded : final.forwarded.buckets = state.forwarded.buckets ++ kept
  removed : final.removed = state.removed ++ gone
  upgrade : final.upgradeRequested = (state.upgradeRequested || decide ("upgrade" ∈ gone))
  authorization : final.hadProxyAuthorization =
    (state.hadProxyAuthorization || decide ("proxy-authorization" ∈ gone))

theorem decide_mem_append {name : String} (left right : List String) :
    decide (name ∈ left ++ right) = (decide (name ∈ left) || decide (name ∈ right)) := by
  simp

theorem Ran.trans {first second third : FilterState} {kept later : List Bucket}
    {gone more : List String} (h : Ran first second kept gone)
    (hnext : Ran second third later more) : Ran first third (kept ++ later) (gone ++ more) where
  forwarded := by rw [hnext.forwarded, h.forwarded, List.append_assoc]
  removed := by rw [hnext.removed, h.removed, List.append_assoc]
  upgrade := by rw [hnext.upgrade, h.upgrade, decide_mem_append, Bool.or_assoc]
  authorization := by rw [hnext.authorization, h.authorization, decide_mem_append, Bool.or_assoc]

theorem ran_nothing (state : FilterState) : Ran state state [] [] where
  forwarded := (List.append_nil _).symm
  removed := (List.append_nil _).symm
  upgrade := (Bool.or_false _).symm
  authorization := (Bool.or_false _).symm

/-- The values that follow a forwarded one go with it. -/
theorem foldl_forwarded {state : FilterState} {before : List Bucket} {bucket : Bucket}
    (hlower : toAsciiLowercase bucket.name = bucket.name) (hnew : bucket.name ∉ names before)
    (hcurrent : state.current = some (bucket.name, true))
    (hbuckets : state.forwarded.buckets = before ++ [bucket]) (values : List Bytes) :
    let final := (values.map fun value => ((none : Option String), value)).foldl
      (filterStep te nominated) state
    final.forwarded.buckets = before ++ [{ bucket with more := bucket.more ++ values }] ∧
      final.removed = state.removed ∧ final.upgradeRequested = state.upgradeRequested ∧
      final.hadProxyAuthorization = state.hadProxyAuthorization := by
  induction values generalizing state bucket with
  | nil =>
      refine ⟨?_, rfl, rfl, rfl⟩
      rw [List.append_nil]
      exact hbuckets
  | cons value rest ih =>
      have hstep : filterStep te nominated state (none, value) =
          { state with forwarded := state.forwarded.append bucket.name value } := by
        rw [filterStep, decideName, forwardValue, hcurrent]
      have hafter : (state.forwarded.append bucket.name value).buckets =
          before ++ [{ bucket with more := bucket.more ++ [value] }] := by
        rw [append_buckets, hlower, hbuckets]
        exact appendValue_new hnew value
      have hrest := @ih { state with forwarded := state.forwarded.append bucket.name value }
        { bucket with more := bucket.more ++ [value] } hlower hnew hcurrent hafter
      dsimp only at hrest ⊢
      rw [List.map_cons, List.foldl_cons, hstep]
      rw [List.append_assoc, List.singleton_append] at hrest
      exact hrest

theorem foldl_skipped {state : FilterState} {name : String}
    (hcurrent : state.current = some (name, false)) (values : List Bytes) :
    (values.map fun value => ((none : Option String), value)).foldl (filterStep te nominated)
      state = state := by
  induction values with
  | nil => rfl
  | cons value rest ih =>
      have hstep : filterStep te nominated state (none, value) = state := by
        rw [filterStep, decideName, forwardValue, hcurrent]
      rw [List.map_cons, List.foldl_cons, hstep, ih]

/-- One name of the map: all of its values go on, or the name is removed. -/
theorem ran_bucket {state : FilterState} {bucket : Bucket}
    (hlower : toAsciiLowercase bucket.name = bucket.name)
    (hforwarded : bucket.name ∉ names state.forwarded.buckets)
    (hremoved : bucket.name ∉ state.removed) :
    Ran state (bucket.items.foldl (filterStep te nominated) state)
      (if Forwards te nominated bucket = true then [bucket] else [])
      (if Forwards te nominated bucket = true then [] else [bucket.name]) := by
  rw [Bucket.items, List.foldl_cons]
  by_cases hclassify : Forwards te nominated bucket = true
  · have hstep : filterStep te nominated state (some bucket.name, bucket.first) =
        { state with
          current := some (bucket.name, true)
          forwarded := state.forwarded.append bucket.name bucket.first } := by
      rw [Forwards] at hclassify
      rw [filterStep, decideName, hlower]
      dsimp only
      rw [hclassify, if_pos rfl, forwardValue]
    have hafter : (state.forwarded.append bucket.name bucket.first).buckets =
        state.forwarded.buckets ++ [{ bucket with more := [] }] := by
      rw [append_buckets, hlower]
      exact appendValue_absent hforwarded _
    obtain ⟨hbuckets, hrest⟩ := @foldl_forwarded te nominated
      { state with
        current := some (bucket.name, true)
        forwarded := state.forwarded.append bucket.name bucket.first }
      state.forwarded.buckets { bucket with more := [] } hlower hforwarded rfl hafter bucket.more
    rw [if_pos hclassify, if_pos hclassify, hstep]
    refine ⟨?_, ?_, ?_, ?_⟩
    · rw [List.nil_append] at hbuckets
      exact hbuckets
    · rw [List.append_nil]
      exact hrest.1
    · exact hrest.2.1.trans (Bool.or_false _).symm
    · exact hrest.2.2.trans (Bool.or_false _).symm
  · have hstep : filterStep te nominated state (some bucket.name, bucket.first) =
        { applySideEffects bucket.name state with current := some (bucket.name, false) } := by
      rw [Forwards, Bool.not_eq_true] at hclassify
      rw [filterStep, decideName, hlower]
      dsimp only
      rw [hclassify, if_neg (by decide), forwardValue]
    rw [if_neg hclassify, if_neg hclassify, hstep, foldl_skipped rfl]
    refine ⟨(List.append_nil _).symm, ?_, ?_, ?_⟩
    · exact if_neg hremoved
    · simp only [applySideEffects, List.mem_singleton, eq_comm]
    · simp only [applySideEffects, List.mem_singleton, eq_comm]

/-- The whole map. -/
theorem ran_buckets {state : FilterState} {buckets : List Bucket}
    (hlower : ∀ name ∈ names buckets, toAsciiLowercase name = name)
    (hdistinct : (names buckets).Nodup)
    (hforwarded : ∀ name ∈ names buckets, name ∉ names state.forwarded.buckets)
    (hremoved : ∀ name ∈ names buckets, name ∉ state.removed) :
    Ran state ((buckets.flatMap Bucket.items).foldl (filterStep te nominated) state)
      (buckets.filter (Forwards te nominated))
      (names (buckets.filter fun bucket => !Forwards te nominated bucket)) := by
  induction buckets generalizing state with
  | nil => exact ran_nothing state
  | cons bucket rest ih =>
      rw [names_cons, List.nodup_cons] at hdistinct
      have hfirst := @ran_bucket te nominated state bucket (hlower _ List.mem_cons_self)
        (hforwarded _ List.mem_cons_self) (hremoved _ List.mem_cons_self)
      rw [List.flatMap_cons, List.foldl_append]
      have hne : ∀ name ∈ names rest, name ≠ bucket.name := by
        rintro name hname rfl
        exact hdistinct.1 hname
      have hrest := @ih (bucket.items.foldl (filterStep te nominated) state)
        (fun name hname => hlower name (List.mem_cons_of_mem _ hname)) hdistinct.2
        (by
          intro name hname hmem
          rw [hfirst.forwarded, names, List.map_append, List.mem_append] at hmem
          rcases hmem with hold | hnew
          · exact hforwarded name (List.mem_cons_of_mem _ hname) hold
          · split at hnew
            · exact hne name hname (List.mem_singleton.mp hnew)
            · exact absurd hnew List.not_mem_nil)
        (by
          intro name hname hmem
          rw [hfirst.removed, List.mem_append] at hmem
          rcases hmem with hold | hnew
          · exact hremoved name (List.mem_cons_of_mem _ hname) hold
          · split at hnew
            · exact absurd hnew List.not_mem_nil
            · exact hne name hname (List.mem_singleton.mp hnew))
      have hboth := hfirst.trans hrest
      by_cases hclassify : Forwards te nominated bucket = true
      · rw [if_pos hclassify, if_pos hclassify] at hboth
        rw [List.filter_cons_of_pos hclassify, List.filter_cons_of_neg (by simp [hclassify])]
        exact hboth
      · rw [if_neg hclassify, if_neg hclassify] at hboth
        rw [List.filter_cons_of_neg hclassify, List.filter_cons_of_pos (by simp [hclassify])]
        exact hboth

end

/-! ### What is filtered -/

/-- The tokens of all Connection values that are text. -/
def connectionTokens (headers : HeaderBuckets) : List String :=
  (getAll headers.buckets "connection").flatMap fun value =>
    (tokens ((toStr value).getD "")).map toAsciiLowercase

theorem foldl_nominate (found : Bool × List String) (all : List String) :
    (all.foldl nominate found).1 = (found.1 || decide ("upgrade" ∈ all)) ∧
      ∀ name, name ∈ (all.foldl nominate found).2 ↔ name ∈ found.2 ∨ name ∈ all := by
  induction all generalizing found with
  | nil => simp
  | cons token rest ih =>
      obtain ⟨hupgrade, hmem⟩ := ih (nominate found token)
      rw [List.foldl_cons]
      constructor
      · rw [hupgrade, nominate, Bool.or_assoc]
        congr 1
        simp [eq_comm]
      · intro name
        rw [hmem, nominate, List.mem_cons]
        dsimp only
        split
        · rename_i hold
          constructor
          · rintro (hfound | hrest)
            · exact .inl hfound
            · exact .inr (.inr hrest)
          · rintro (hfound | rfl | hrest)
            · exact .inl hfound
            · exact .inl hold
            · exact .inr hrest
        · rw [List.mem_append, List.mem_singleton, or_assoc]

theorem nominations_upgrade (headers : HeaderBuckets) :
    (nominations headers).1 = decide ("upgrade" ∈ connectionTokens headers) := by
  rw [nominations, (foldl_nominate _ _).1, Bool.false_or]
  rfl

theorem mem_nominations (headers : HeaderBuckets) (name : String) :
    name ∈ (nominations headers).2 ↔ name ∈ connectionTokens headers := by
  rw [nominations, (foldl_nominate _ _).2]
  simp [connectionTokens]

/-- Whether the fields of a name are forwarded. -/
def kept (headers : HeaderBuckets) (name : String) : Bool :=
  classify name (teForward headers) (nominations headers).2

theorem filterProxyHeaders_eq (headers : HeaderBuckets) :
    (filterProxyHeaders headers).forwarded.buckets =
        headers.buckets.filter (fun bucket => kept headers bucket.name) ∧
      (filterProxyHeaders headers).removed =
        names (headers.buckets.filter fun bucket => !kept headers bucket.name) ∧
      (filterProxyHeaders headers).upgradeRequested =
        (decide ("upgrade" ∈ connectionTokens headers) ||
          decide ("upgrade" ∈ (filterProxyHeaders headers).removed)) ∧
      (filterProxyHeaders headers).hadProxyAuthorization =
        decide ("proxy-authorization" ∈ (filterProxyHeaders headers).removed) := by
  have hran := @ran_buckets (teForward headers) (nominations headers).2
    { forwarded := .empty
      removed := []
      upgradeRequested := (nominations headers).1
      hadProxyAuthorization := false
      current := none } headers.buckets headers.lower headers.distinct
    (fun name _ hname => absurd hname List.not_mem_nil)
    (fun name _ hname => absurd hname List.not_mem_nil)
  have hremoved : (filterProxyHeaders headers).removed =
      names (headers.buckets.filter fun bucket => !kept headers bucket.name) := hran.removed
  refine ⟨hran.forwarded, hremoved, ?_, ?_⟩
  · rw [hremoved, ← nominations_upgrade]
    exact hran.upgrade
  · rw [hremoved]
    exact hran.authorization.trans (Bool.false_or _)

theorem getAll_filter (buckets : List Bucket) (keep : String → Bool) (name : String) :
    getAll (buckets.filter fun bucket => keep bucket.name) name =
      if keep name = true then getAll buckets name else [] := by
  induction buckets with
  | nil =>
      rw [List.filter_nil]
      split
      · rfl
      · rfl
  | cons bucket rest ih =>
      rw [List.filter_cons]
      by_cases hname : bucket.name = name
      · by_cases hkeep : keep name = true
        · rw [if_pos (by rw [hname]; exact hkeep), getAll_cons, getAll_cons, ih, if_pos hkeep,
            if_pos hkeep]
        · rw [if_neg (by rw [hname]; exact hkeep), ih, if_neg hkeep, if_neg hkeep]
      · have hsame : getAll (bucket :: rest) name = getAll rest name := by
          rw [getAll_cons, if_neg hname, List.nil_append]
        split
        · rw [getAll_cons, if_neg hname, List.nil_append, ih, hsame]
        · rw [ih, hsame]

theorem getAll_forwarded (headers : HeaderBuckets) (name : String) :
    getAll (filterProxyHeaders headers).forwarded.buckets name =
      if kept headers name = true then getAll headers.buckets name else [] := by
  rw [(filterProxyHeaders_eq headers).1]
  exact getAll_filter headers.buckets (kept headers) name

theorem mem_removed (headers : HeaderBuckets) (name : String) :
    name ∈ (filterProxyHeaders headers).removed ↔
      getAll headers.buckets name ≠ [] ∧ kept headers name = false := by
  rw [(filterProxyHeaders_eq headers).2.1, getAll_ne_nil_iff, names, names, List.mem_map,
    List.mem_map]
  constructor
  · rintro ⟨bucket, hbucket, rfl⟩
    obtain ⟨hmem, hgone⟩ := List.mem_filter.mp hbucket
    exact ⟨⟨bucket, hmem, rfl⟩, by simpa using hgone⟩
  · rintro ⟨⟨bucket, hmem, rfl⟩, hgone⟩
    exact ⟨bucket, List.mem_filter.mpr ⟨hmem, by simpa using hgone⟩, rfl⟩

theorem removed_nodup (headers : HeaderBuckets) : (filterProxyHeaders headers).removed.Nodup := by
  rw [(filterProxyHeaders_eq headers).2.1]
  exact headers.distinct.sublist (List.filter_sublist.map Bucket.name)

theorem classify_eq_false {name : String} {te : Bool} {nominated : List String} :
    classify name te nominated = false ↔
      name = "connection" ∨ name ∈ proxyOnly ∨ name = "upgrade" ∨ name ∈ nominated ∨
        name = "te" ∧ te = false := by
  rw [classify]
  split
  · rename_i hconnection
    exact iff_of_true rfl (.inl hconnection)
  · rename_i hconnection
    split
    · rename_i hproxy
      exact iff_of_true rfl (.inr (.inl hproxy))
    · rename_i hproxy
      split
      · rename_i hupgrade
        exact iff_of_true rfl (.inr (.inr (.inl hupgrade)))
      · rename_i hupgrade
        split
        · rename_i hnominated
          exact iff_of_true rfl (.inr (.inr (.inr (.inl hnominated))))
        · rename_i hnominated
          rw [or_iff_right hconnection, or_iff_right hproxy, or_iff_right hupgrade,
            or_iff_right hnominated]
          split
          · rename_i hte
            exact (and_iff_right hte).symm
          · rename_i hte
            exact iff_of_false (by decide) fun h => hte h.1

/-! ### Filtering twice -/

theorem HeaderBuckets.eq_of_buckets {headers others : HeaderBuckets}
    (h : headers.buckets = others.buckets) : headers = others := by
  obtain ⟨buckets, distinct, lower⟩ := headers
  obtain ⟨others, distinct', lower'⟩ := others
  obtain rfl : buckets = others := h
  rfl

theorem not_kept_connection (headers : HeaderBuckets) : kept headers "connection" = false :=
  classify_eq_false.mpr (.inl rfl)

theorem teForward_congr {headers others : HeaderBuckets}
    (h : getAll headers.buckets "te" = getAll others.buckets "te") :
    teForward headers = teForward others := by
  rw [teForward, teForward, h]

theorem kept_forwarded {headers : HeaderBuckets} {name : String} (h : kept headers name = true) :
    kept (filterProxyHeaders headers).forwarded name = true := by
  have hnone : ∀ other, other ∉ (nominations (filterProxyHeaders headers).forwarded).2 := by
    intro other hother
    rw [mem_nominations, connectionTokens, getAll_forwarded, not_kept_connection,
      if_neg (by decide)] at hother
    exact absurd hother List.not_mem_nil
  rw [← Bool.not_eq_false, kept, classify_eq_false]
  rintro (hname | hname | hname | hname | ⟨hname, hte⟩)
  · rw [kept, classify_eq_false.mpr (.inl hname)] at h
    cases h
  · rw [kept, classify_eq_false.mpr (.inr (.inl hname))] at h
    cases h
  · rw [kept, classify_eq_false.mpr (.inr (.inr (.inl hname)))] at h
    cases h
  · exact hnone name hname
  · -- the transfer codings that were forwarded are the ones that were read
    have hsame : teForward (filterProxyHeaders headers).forwarded = teForward headers := by
      apply teForward_congr
      rw [getAll_forwarded, ← hname, if_pos h]
    rw [hsame] at hte
    rw [kept, classify_eq_false.mpr (.inr (.inr (.inr (.inr ⟨hname, hte⟩))))] at h
    cases h

/-- A second filtering finds nothing to remove and nothing to report. -/
theorem filterProxyHeaders_twice (headers : HeaderBuckets) :
    filterProxyHeaders (filterProxyHeaders headers).forwarded =
      { forwarded := (filterProxyHeaders headers).forwarded
        removed := []
        upgradeRequested := false
        hadProxyAuthorization := false } := by
  obtain ⟨hforwarded, hremoved, hupgrade, hauthorization⟩ :=
    filterProxyHeaders_eq (filterProxyHeaders headers).forwarded
  have hall : ∀ bucket ∈ (filterProxyHeaders headers).forwarded.buckets,
      kept (filterProxyHeaders headers).forwarded bucket.name = true := by
    intro bucket hbucket
    rw [(filterProxyHeaders_eq headers).1] at hbucket
    exact kept_forwarded (List.mem_filter.mp hbucket).2
  have hnothing : (filterProxyHeaders (filterProxyHeaders headers).forwarded).removed = [] := by
    rw [hremoved, names, List.map_eq_nil_iff, List.filter_eq_nil_iff]
    intro bucket hbucket
    rw [hall bucket hbucket]
    decide
  have htokens : "upgrade" ∉ connectionTokens (filterProxyHeaders headers).forwarded := by
    rw [connectionTokens, getAll_forwarded, not_kept_connection, if_neg (by decide)]
    exact List.not_mem_nil
  rw [hnothing] at hupgrade hauthorization
  rw [decide_eq_false htokens] at hupgrade
  apply ProxyFilterOutcome.ext
  · apply HeaderBuckets.eq_of_buckets
    rw [hforwarded]
    exact List.filter_eq_self.mpr hall
  · exact hnothing
  · exact hupgrade
  · exact hauthorization

/-! ### The map as a list of its fields -/

def Bucket.fields (bucket : Bucket) : HeaderMap :=
  bucket.values.map fun value => { name := bucket.name, value := value }

def HeaderBuckets.fields (headers : HeaderBuckets) : HeaderMap :=
  headers.buckets.flatMap Bucket.fields

section

variable {buckets : List Bucket}

theorem name_of_mem_fields {bucket : Bucket} {field : HeaderField} (h : field ∈ bucket.fields) :
    field.name = bucket.name := by
  obtain ⟨value, _, rfl⟩ := List.mem_map.mp h
  rfl

theorem filter_fields (buckets : List Bucket) (keep : String → Bool) :
    (buckets.flatMap Bucket.fields).filter (fun field => keep field.name) =
      (buckets.filter fun bucket => keep bucket.name).flatMap Bucket.fields := by
  induction buckets with
  | nil => rfl
  | cons bucket rest ih =>
      rw [List.flatMap_cons, List.filter_append, ih, List.filter_cons]
      by_cases hkeep : keep bucket.name = true
      · have hall : bucket.fields.filter (fun field => keep field.name) = bucket.fields := by
          rw [List.filter_eq_self]
          intro field hfield
          rw [name_of_mem_fields hfield]
          exact hkeep
        rw [hall, if_pos hkeep, List.flatMap_cons]
      · have hnone : bucket.fields.filter (fun field => keep field.name) = [] := by
          rw [List.filter_eq_nil_iff]
          intro field hfield
          rw [name_of_mem_fields hfield]
          exact hkeep
        rw [hnone, if_neg hkeep, List.nil_append]

theorem values_of_fields (buckets : List Bucket) (name : String) :
    ((buckets.flatMap Bucket.fields).filter fun field => decide (field.name = name)).map
      HeaderField.value = getAll buckets name := by
  rw [filter_fields buckets fun other => decide (other = name), getAll, List.map_flatMap]
  congr 1
  funext bucket
  rw [Bucket.fields, List.map_map]
  exact List.map_id _

/-- The names of the fields, each once. -/
theorem eraseDups_names (h : (names buckets).Nodup) :
    ((buckets.flatMap Bucket.fields).map HeaderField.name).eraseDups = names buckets := by
  induction buckets with
  | nil => rfl
  | cons bucket rest ih =>
      rw [names_cons, List.nodup_cons] at h
      have hmore : (bucket.more.map fun value =>
          ({ name := bucket.name, value := value } : HeaderField)).map HeaderField.name =
          bucket.more.map fun _ => bucket.name := by
        rw [List.map_map]
        rfl
      have hlater : ∀ name ∈ (rest.flatMap Bucket.fields).map HeaderField.name,
          (!name == bucket.name) = true := by
        intro name hname
        obtain ⟨field, hfield, rfl⟩ := List.mem_map.mp hname
        obtain ⟨other, hother, hof⟩ := List.mem_flatMap.mp hfield
        rw [name_of_mem_fields hof, Bool.not_eq_true', beq_eq_false_iff_ne]
        intro heq
        exact h.1 (List.mem_map.mpr ⟨other, hother, heq⟩)
      have hskip : (bucket.more.map fun _ => bucket.name).filter
          (fun name => !name == bucket.name) = [] := by
        rw [List.filter_eq_nil_iff]
        intro name hname
        obtain ⟨value, _, rfl⟩ := List.mem_map.mp hname
        simp
      rw [List.flatMap_cons, List.map_append, Bucket.fields, Bucket.values, List.map_cons,
        List.map_cons, hmore, List.cons_append, List.eraseDups_cons, List.filter_append, hskip,
        List.nil_append, List.filter_eq_self.mpr hlater, ih h.2, names_cons]

end

theorem classify_congr {name : String} {te : Bool} {nominated others : List String}
    (h : ∀ token, token ∈ nominated ↔ token ∈ others) :
    classify name te nominated = classify name te others := by
  rw [Bool.eq_iff_iff, ← Bool.not_eq_false, ← Bool.not_eq_false, classify_eq_false,
    classify_eq_false, h]

theorem mem_nominated (headers : HeaderBuckets) (name : String) :
    name ∈ Authorities.nominated headers.fields ↔ name ∈ connectionTokens headers := by
  rw [Authorities.nominated, List.mem_eraseDups, connectionTokens, ← values_of_fields,
    List.flatMap_map]
  rfl

theorem flatMap_texts (values : List Bytes) :
    (values.filterMap toStr).flatMap tokens =
      values.flatMap fun value => ((toStr value).map tokens).getD [] := by
  induction values with
  | nil => rfl
  | cons value rest ih =>
      rw [List.filterMap_cons, List.flatMap_cons, ← ih]
      cases toStr value with
      | none => rfl
      | some found => rfl

theorem teForward_fields (headers : HeaderBuckets) :
    Authorities.teForward headers.fields = teForward headers := by
  have htokens : ((headers.fields.filter fun field => decide (field.name = "te")).flatMap
      fun field => ((toStr field.value).map tokens).getD []) =
      ((getAll headers.buckets "te").filterMap toStr).flatMap tokens := by
    rw [← values_of_fields, flatMap_texts, List.flatMap_map]
    rfl
  rw [Authorities.teForward, htokens]
  rfl

/-- The loop over the map does what the filter of a list of fields does. -/
theorem filterProxyHeaders_fields (headers : HeaderBuckets) :
    Authorities.filterProxyHeaders headers.fields =
      { forwarded := (filterProxyHeaders headers).forwarded.fields
        removed := (filterProxyHeaders headers).removed
        upgradeRequested := (filterProxyHeaders headers).upgradeRequested
        hadProxyAuthorization := (filterProxyHeaders headers).hadProxyAuthorization } := by
  obtain ⟨hforwarded, hremoved, hupgrade, hauthorization⟩ := filterProxyHeaders_eq headers
  have hkept : ∀ field : HeaderField, classify field.name
      (Authorities.teForward headers.fields) (Authorities.nominated headers.fields) =
      kept headers field.name := by
    intro field
    rw [teForward_fields, kept]
    apply classify_congr
    intro token
    rw [mem_nominated, mem_nominations]
  have hstripped : (headers.fields.filter fun field => !kept headers field.name).map
      HeaderField.name = ((headers.buckets.filter fun bucket =>
        !kept headers bucket.name).flatMap Bucket.fields).map HeaderField.name := by
    rw [HeaderBuckets.fields, filter_fields headers.buckets fun name => !kept headers name]
  have honce := eraseDups_names (headers.distinct.sublist
    ((List.filter_sublist (p := fun bucket => !kept headers bucket.name)).map Bucket.name))
  have hmem : ∀ name, name ∈ ((headers.buckets.filter fun bucket =>
      !kept headers bucket.name).flatMap Bucket.fields).map HeaderField.name ↔
      name ∈ (filterProxyHeaders headers).removed := by
    intro name
    rw [← List.mem_eraseDups, honce, hremoved]
  rw [Authorities.filterProxyHeaders]
  simp only [hkept, hstripped]
  congr 1
  · rw [HeaderBuckets.fields, HeaderBuckets.fields, hforwarded]
    exact filter_fields headers.buckets (kept headers)
  · rw [honce, hremoved]
  · rw [hupgrade]
    simp only [hmem, mem_nominated]
  · rw [hauthorization]
    simp only [hmem]

/-! ### What a filter does to the fields of a message -/

/-- The octets of a value as text. -/
def text (value : Bytes) : String :=
  String.ofList (value.map fun byte => Char.ofNat byte.toNat)

/-- A token of a Connection field names it. -/
def Nominated (fields : List HeaderField) (name : String) : Prop :=
  ∃ value ∈ valuesOf fields "connection", ∃ token ∈ tokens (text value),
    toAsciiLowercase token = name

/-- The tokens of the TE fields. -/
def teTokens (fields : List HeaderField) : List String :=
  (valuesOf fields "te").flatMap fun value => tokens (text value)

def HopByHop (fields : List HeaderField) (name : String) : Prop :=
  name = "connection" ∨ name = "upgrade" ∨ name ∈ proxyOnly ∨ Nominated fields name

/-- The Connection and TE values are printable text. -/
def Readable (fields : List HeaderField) : Prop :=
  ∀ value ∈ valuesOf fields "connection" ++ valuesOf fields "te", (toStr value).isSome = true

instance (fields : List HeaderField) : Decidable (Readable fields) :=
  inferInstanceAs (Decidable (∀ value ∈ _, _))

/-- Present, and not among what goes on. -/
def Dropped (fields : List HeaderField) (name : String) : Prop :=
  valuesOf fields name ≠ [] ∧
    getAll (filterProxyHeaders (.ofFields fields)).forwarded.buckets name = []

section

variable {fields : List HeaderField} {name : String}

theorem toStr_eq_text {value : Bytes} (h : (toStr value).isSome = true) :
    toStr value = some (text value) := by
  rw [toStr] at h ⊢
  split at h
  · rename_i hvisible
    rw [if_pos hvisible]
    rfl
  · cases h

theorem dropped_iff :
    Dropped fields name ↔ valuesOf fields name ≠ [] ∧ kept (.ofFields fields) name = false := by
  rw [Dropped, getAll_forwarded, getAll_ofFields]
  constructor
  · rintro ⟨hpresent, hnone⟩
    refine ⟨hpresent, ?_⟩
    rw [← Bool.not_eq_true]
    intro hkept
    rw [if_pos hkept] at hnone
    exact hpresent hnone
  · rintro ⟨hpresent, hgone⟩
    refine ⟨hpresent, if_neg ?_⟩
    rw [hgone]
    decide

theorem mem_connectionTokens (hread : Readable fields) :
    name ∈ connectionTokens (.ofFields fields) ↔ Nominated fields name := by
  rw [connectionTokens, getAll_ofFields, List.mem_flatMap, Nominated]
  apply exists_congr
  intro value
  apply and_congr_right
  intro hvalue
  have htext := toStr_eq_text (hread value (List.mem_append_left _ hvalue))
  rw [htext, Option.getD_some, List.mem_map]

theorem teForward_iff (hread : Readable fields) :
    teForward (.ofFields fields) = true ↔ teTokens fields ≠ [] ∧
      ∀ token ∈ teTokens fields, eqIgnoreAsciiCase token "trailers" = true := by
  have htexts : (valuesOf fields "te").filterMap toStr = (valuesOf fields "te").map text := by
    rw [← List.filterMap_eq_map]
    apply List.filterMap_congr
    intro value hvalue
    exact toStr_eq_text (hread value (List.mem_append_right _ hvalue))
  have htokens : ((getAll (HeaderBuckets.ofFields fields).buckets "te").filterMap toStr).flatMap
      tokens = teTokens fields := by
    rw [getAll_ofFields, htexts, List.flatMap_map]
    rfl
  rw [teForward, htokens, Bool.and_eq_true, decide_eq_true_iff, List.all_eq_true]

/-- Which names are dropped, and when an upgrade is reported. -/
theorem dropped_readable (hread : Readable fields) :
    Dropped fields name ↔ valuesOf fields name ≠ [] ∧ (HopByHop fields name ∨
      name = "te" ∧ ¬(teTokens fields ≠ [] ∧
        ∀ token ∈ teTokens fields, eqIgnoreAsciiCase token "trailers" = true)) := by
  rw [dropped_iff, kept, classify_eq_false, mem_nominations, mem_connectionTokens hread,
    ← Bool.not_eq_true, teForward_iff hread, HopByHop]
  apply and_congr_right
  intro _
  constructor
  · rintro (h | h | h | h | h)
    · exact .inl (.inl h)
    · exact .inl (.inr (.inr (.inl h)))
    · exact .inl (.inr (.inl h))
    · exact .inl (.inr (.inr (.inr h)))
    · exact .inr h
  · rintro ((h | h | h | h) | h)
    · exact .inl h
    · exact .inr (.inr (.inl h))
    · exact .inr (.inl h)
    · exact .inr (.inr (.inr (.inl h)))
    · exact .inr (.inr (.inr (.inr h)))

theorem mem_removed_iff :
    name ∈ (filterProxyHeaders (.ofFields fields)).removed ↔ Dropped fields name := by
  rw [mem_removed, dropped_iff, getAll_ofFields]

/-- A name that no field may carry on is dropped wherever it is present. -/
theorem dropped_always
    (h : ∀ headers, kept headers name = false) :
    Dropped fields name ↔ valuesOf fields name ≠ [] := by
  rw [dropped_iff]
  exact and_iff_left (h _)

theorem not_kept_upgrade (headers : HeaderBuckets) : kept headers "upgrade" = false :=
  classify_eq_false.mpr (.inr (.inr (.inl rfl)))

theorem not_kept_authorization (headers : HeaderBuckets) :
    kept headers "proxy-authorization" = false :=
  classify_eq_false.mpr (.inr (.inl (by decide)))

theorem hadProxyAuthorization_iff :
    (filterProxyHeaders (.ofFields fields)).hadProxyAuthorization = true ↔
      valuesOf fields "proxy-authorization" ≠ [] := by
  rw [(filterProxyHeaders_eq _).2.2.2, decide_eq_true_iff, mem_removed_iff,
    dropped_always not_kept_authorization]

theorem upgradeRequested_iff (hread : Readable fields) :
    (filterProxyHeaders (.ofFields fields)).upgradeRequested = true ↔
      valuesOf fields "upgrade" ≠ [] ∨ Nominated fields "upgrade" := by
  rw [(filterProxyHeaders_eq _).2.2.1, Bool.or_eq_true, decide_eq_true_iff, decide_eq_true_iff,
    mem_connectionTokens hread, mem_removed_iff, dropped_always not_kept_upgrade]
  exact or_comm

/-- A TE value without a token is dropped: nothing in it is other than trailers. -/
theorem empty_te_dropped :
    ¬∀ (fields : List HeaderField) (name : String),
      Dropped fields name ↔ valuesOf fields name ≠ [] ∧ (HopByHop fields name ∨
        name = "te" ∧ ∃ token ∈ teTokens fields, eqIgnoreAsciiCase token "trailers" = false) := by
  intro h
  have hdropped : Dropped [⟨"TE", []⟩] "te" := by
    rw [Dropped]
    exact ⟨by decide, by decide⟩
  obtain ⟨_, (hname | hname | hname | hname) | ⟨_, token, htoken, _⟩⟩ := (h _ _).mp hdropped
  · exact absurd hname (by decide)
  · exact absurd hname (by decide)
  · exact absurd hname (by decide)
  · have hnone : valuesOf [⟨"TE", []⟩] "connection" = [] := by decide
    obtain ⟨value, hvalue, _⟩ := hname
    rw [hnone] at hvalue
    exact absurd hvalue List.not_mem_nil
  · have hnone : teTokens [⟨"TE", []⟩] = [] := by decide
    rw [hnone] at htoken
    exact absurd htoken List.not_mem_nil

/-- The fields of a name go on together or not at all, and what is dropped is reported. -/
theorem filterProxyHeaders_exact (fields : List HeaderField) :
    let outcome := filterProxyHeaders (.ofFields fields)
    (∀ name, getAll outcome.forwarded.buckets name = valuesOf fields name ∨
        getAll outcome.forwarded.buckets name = []) ∧
      (Readable fields →
        (∀ name, Dropped fields name ↔ valuesOf fields name ≠ [] ∧ (HopByHop fields name ∨
          name = "te" ∧ ¬(teTokens fields ≠ [] ∧
            ∀ token ∈ teTokens fields, eqIgnoreAsciiCase token "trailers" = true))) ∧
        (outcome.upgradeRequested = true ↔
          valuesOf fields "upgrade" ≠ [] ∨ Nominated fields "upgrade")) ∧
      outcome.removed.Nodup ∧ (∀ name, name ∈ outcome.removed ↔ Dropped fields name) ∧
      (outcome.hadProxyAuthorization = true ↔ valuesOf fields "proxy-authorization" ≠ []) ∧
      filterProxyHeaders outcome.forwarded =
        { forwarded := outcome.forwarded
          removed := []
          upgradeRequested := false
          hadProxyAuthorization := false } := by
  refine ⟨?_, ?_, ?_, ?_, ?_, ?_⟩
  · intro name
    rw [getAll_forwarded, getAll_ofFields]
    split
    · exact .inl rfl
    · exact .inr rfl
  · intro hread
    exact ⟨fun name => dropped_readable hread, upgradeRequested_iff hread⟩
  · exact removed_nodup _
  · intro name
    exact mem_removed_iff
  · exact hadProxyAuthorization_iff
  · exact filterProxyHeaders_twice _

/-- `Connection: X-Hop` takes both fields of `x-hop`. -/
theorem nominated_field_dropped :
    Dropped [⟨"Connection", [88, 45, 72, 111, 112]⟩, ⟨"x-hop", [49]⟩, ⟨"X-Hop", [50]⟩]
      "x-hop" := by
  obtain ⟨_, hread, _⟩ := filterProxyHeaders_exact
    [⟨"Connection", [88, 45, 72, 111, 112]⟩, ⟨"x-hop", [49]⟩, ⟨"X-Hop", [50]⟩]
  apply ((hread (by decide)).1 "x-hop").mpr
  refine ⟨by decide, .inl (.inr (.inr (.inr ?_)))⟩
  exact ⟨_, List.mem_cons_self, "X-Hop", by decide, by decide⟩

end

end EggReplay.Intercept.HeaderFiltering
