import AskLens.Library.Distinct
import AskLens.Planning.Accepted
import AskLens.Sample

/-!
# Unknown and unauthorized members

Two runs of the validator: on a resource, and on the same resource without some
members that the caller may not see. A reference to such a member stops both
runs; it is concealed when both report the same public error.
-/
namespace AskLens.Planning

open Python Catalog Checks

/-! ## Two runs -/

section

variable {α β : Type}

/-- Two runs that stop together, with one public error unless something leaks. -/
def Alike (x y : Py α) (leak : Prop) : Prop :=
  (∀ a, x = .ok a ↔ y = .ok a) ∧ (publicOutcome x = publicOutcome y ↔ ¬ leak)

theorem Alike.refl (x : Py α) : Alike x x False := ⟨fun _ => Iff.rfl, by simp⟩

theorem Alike.congr {x y : Py α} {leak leak' : Prop} (h : Alike x y leak) (hleak : leak ↔ leak') :
    Alike x y leak' := ⟨h.1, by rw [h.2, hleak]⟩

theorem publicOutcome_stop {x : Py α} (hx : ∀ a, x ≠ .ok a) {f : α → Py β} {y : Py α}
    (hy : ∀ a, y ≠ .ok a) {g : α → Py β} :
    publicOutcome (x >>= f) = publicOutcome (y >>= g) ↔ publicOutcome x = publicOutcome y := by
  cases hx' : x with
  | ok a => exact absurd hx' (hx a)
  | error e =>
    cases hy' : y with
    | ok b => exact absurd hy' (hy b)
    | error e' => cases e <;> cases e' <;> simp [publicOutcome]

theorem bind_ne_ok {x : Py α} (hx : ∀ a, x ≠ .ok a) (f : α → Py β) : ∀ b, x >>= f ≠ .ok b := by
  intro b hb
  obtain ⟨a, ha, -⟩ := bind_eq_ok.mp hb
  exact hx a ha

/-- Runs that go on together leak in their first part, or after it in the rest. -/
theorem Alike.bind {x y : Py α} {f g : α → Py β} {leak : Prop} {leak' : α → Prop}
    (hxy : Alike x y leak) (hfg : ∀ a, x = .ok a → Alike (f a) (g a) (leak' a)) :
    Alike (x >>= f) (y >>= g) (leak ∨ ∃ a, x = .ok a ∧ leak' a) := by
  cases hx : x with
  | ok a =>
    have hy : y = .ok a := (hxy.1 a).mp hx
    have hnone : ¬ leak := by
      apply hxy.2.mp
      rw [hx, hy]
    have hrest := hfg a hx
    rw [hy]
    exact ⟨hrest.1, by simpa [hnone] using hrest.2⟩
  | error e =>
    have hx' : ∀ a, (.error e : Py α) ≠ .ok a := fun a ha => by cases ha
    have hy' : ∀ a, y ≠ .ok a := fun a ha => by
      rw [← hxy.1 a, hx] at ha
      cases ha
    refine ⟨fun b => ?_, ?_⟩
    · exact iff_of_false (bind_ne_ok hx' f b) (bind_ne_ok hy' g b)
    · rw [publicOutcome_stop hx' hy', ← hx, hxy.2, hx]
      simp

/-- Runs of which the second may pass a check that stops the first, and then stops later. -/
theorem alike_of_one_sided {x y : Py Unit} {f g : Unit → Py β} {leak : Prop}
    (hxy : x = .ok () → y = .ok ())
    (hsame : x ≠ .ok () → y ≠ .ok () → publicOutcome x = publicOutcome y)
    (hrest : x = .ok () → Alike (f ()) (g ()) leak)
    (hstop : x ≠ .ok () → y = .ok () → ∀ b, g () ≠ .ok b) (c : PublicErrorPayload)
    (hc : x ≠ .ok () → publicOutcome x = .rejected c) :
    Alike (x >>= f) (y >>= g) ((x = .ok () ∧ leak) ∨
      (x ≠ .ok () ∧ y = .ok () ∧ publicOutcome (g ()) ≠ .rejected c)) := by
  by_cases hx : x = .ok ()
  · rw [hx, hxy hx, ok_bind, ok_bind]
    exact (hrest hx).congr (by simp)
  · have hx' : ∀ a, x ≠ .ok a := fun _ => hx
    have hstopped : ∀ b, x >>= f ≠ .ok b := bind_ne_ok hx' f
    by_cases hy : y = .ok ()
    · have houtcome : publicOutcome (x >>= f) = .rejected c := by
        have hxc := hc hx
        cases hxe : x with
        | ok u => exact absurd hxe hx
        | error e =>
          rw [hxe] at hxc
          cases e with
          | askLens exc => simpa [publicOutcome] using hxc
          | builtin exc => cases hxc
      rw [hy, ok_bind]
      refine ⟨fun b => iff_of_false (hstopped b) (hstop hx hy b), ?_⟩
      rw [houtcome]
      simp [hx, eq_comm]
    · have hy' : ∀ a, y ≠ .ok a := fun _ => hy
      refine ⟨fun b => iff_of_false (hstopped b) (bind_ne_ok hy' g b), ?_⟩
      rw [publicOutcome_stop hx' hy']
      simp [hx, hy, hsame hx hy]

/-- The first element that does not pass leaks. -/
def FirstLeak (f : α → Py Unit) (leak : α → Prop) (l : List α) : Prop :=
  ∃ pre a post, l = pre ++ a :: post ∧ (∀ b ∈ pre, f b = .ok ()) ∧ leak a

theorem firstLeak_cons {f : α → Py Unit} {leak : α → Prop} {a : α} {l : List α} :
    FirstLeak f leak (a :: l) ↔ leak a ∨ (f a = .ok () ∧ FirstLeak f leak l) := by
  constructor
  · rintro ⟨pre, b, post, hl, hpre, hleak⟩
    cases pre with
    | nil =>
      obtain ⟨rfl, rfl⟩ : a = b ∧ l = post := by simpa using hl
      exact .inl hleak
    | cons c pre =>
      obtain ⟨rfl, rfl⟩ : a = c ∧ l = pre ++ b :: post := by simpa using hl
      exact .inr ⟨hpre a (by simp), pre, b, post, rfl, fun d hd => hpre d (by simp [hd]), hleak⟩
  · rintro (hleak | ⟨ha, pre, b, post, rfl, hpre, hleak⟩)
    · exact ⟨[], a, l, rfl, by simp, hleak⟩
    · exact ⟨a :: pre, b, post, rfl, by simpa using ⟨ha, hpre⟩, hleak⟩

theorem Alike.forM {f g : α → Py Unit} {leak : α → Prop} {l : List α}
    (h : ∀ a ∈ l, Alike (f a) (g a) (leak a)) :
    Alike (l.forM f) (l.forM g) (FirstLeak f leak l) := by
  induction l with
  | nil => exact (Alike.refl _).congr (by simp [FirstLeak])
  | cons a l ih =>
    have hrest := ih fun b hb => h b (by simp [hb])
    rw [forM_cons, forM_cons]
    refine ((h a (by simp)).bind fun _ _ => hrest).congr ?_
    rw [firstLeak_cons, exists_and_right, Unique.exists_iff]

end

/-! ## Deleted members -/

/-- `other` is `r` without the named members, all of them invisible. Its other attributes, which
the validator does not read, may have been adapted. -/
structure Deletes (access : Access) (r other : SemanticResource)
    (hidden hiddenMetrics : List String) : Prop where
  name : other.name = r.name
  requiresPermission : other.requiresPermission = r.requiresPermission
  fields : other.fields = r.fields.filter fun e => !hidden.contains e.1
  metrics : other.metrics = r.metrics.filter fun e => !hiddenMetrics.contains e.1
  fields_invisible : ∀ name f, r.fields.get? name = some f → name ∈ hidden →
    f.isCatalogVisible access = false
  metrics_invisible : ∀ name m, r.metrics.get? name = some m → name ∈ hiddenMetrics →
    m.isCatalogVisible access.permissions = false

def DeletedField (r : SemanticResource) (hidden : List String) (name : PyStr) (f : FieldSpec) :
    Prop :=
  name.shown ∈ hidden ∧ named? r.fields name = some f

/-- A deleted field that answers before its permission is checked. -/
def LeakyField (r : SemanticResource) (hidden : List String) (limits : PlanLimits)
    (usage : FieldUsage) (name : PyStr) : Prop :=
  ∃ f, DeletedField r hidden name f ∧
    (limits.maxJoins < f.relationDepth ∨ (f.filterOnly = true ∧ usage ≠ .filter))

/-- A deleted metric that answers before its permission is checked. -/
def LeakyMetric (r : SemanticResource) (hiddenMetrics : List String) (limits : PlanLimits)
    (name : PyStr) : Prop :=
  ∃ m, name.shown ∈ hiddenMetrics ∧ named? r.metrics name = some m ∧ limits.maxJoins < m.relationDepth

theorem lookup_filter {α : Type} (d : Dict α) (keep : String → Bool) (name : String) :
    Dict.get? (d.filter fun e => keep e.1) name = if keep name then d.get? name else none := by
  induction d with
  | nil => simp [Dict.get?]
  | cons e rest ih =>
    obtain ⟨k, v⟩ := e
    unfold Dict.get? at ih ⊢
    by_cases hk : name = k
    · subst hk
      cases hkeep : keep name with
      | true => simp [hkeep]
      | false =>
        rw [List.filter_cons_of_neg (by simp [hkeep]), ih]
        simp [hkeep]
    · cases hkeep : keep k with
      | true =>
        rw [List.filter_cons_of_pos (by simp [hkeep]), List.lookup_cons, List.lookup_cons,
          beq_false_of_ne hk, ih]
      | false =>
        rw [List.filter_cons_of_neg (by simp [hkeep]), ih, List.lookup_cons, beq_false_of_ne hk]

section

variable {access : Access} {r other : SemanticResource} {hidden hiddenMetrics : List String}
  {limits : PlanLimits} {usage : FieldUsage} {name : PyStr} {f : FieldSpec}

theorem Deletes.get?_field (h : Deletes access r other hidden hiddenMetrics) (name : String) :
    other.fields.get? name = if hidden.contains name then none else r.fields.get? name := by
  rw [h.fields, lookup_filter r.fields (fun k => !hidden.contains k) name]
  cases hidden.contains name <;> rfl

theorem Deletes.get?_metric (h : Deletes access r other hidden hiddenMetrics) (name : String) :
    other.metrics.get? name =
      if hiddenMetrics.contains name then none else r.metrics.get? name := by
  rw [h.metrics, lookup_filter r.metrics (fun k => !hiddenMetrics.contains k) name]
  cases hiddenMetrics.contains name <;> rfl

theorem Deletes.named?_field (h : Deletes access r other hidden hiddenMetrics) (name : PyStr) :
    named? other.fields name =
      if hidden.contains name.shown then none else named? r.fields name := by
  cases name with
  | text name => exact h.get?_field name
  | surrogates t lone => simp [named?, PyStr.text?]

theorem Deletes.named?_metric (h : Deletes access r other hidden hiddenMetrics) (name : PyStr) :
    named? other.metrics name =
      if hiddenMetrics.contains name.shown then none else named? r.metrics name := by
  cases name with
  | text name => exact h.get?_metric name
  | surrogates t lone => simp [named?, PyStr.text?]

/-- A field that is not deleted is found in both resources or in neither. -/
theorem Deletes.same_field (h : Deletes access r other hidden hiddenMetrics)
    (hname : ∀ f, ¬ DeletedField r hidden name f) :
    named? other.fields name = named? r.fields name := by
  rw [h.named?_field]
  split_ifs with hmem
  · cases hf : named? r.fields name with
    | none => rfl
    | some f => exact absurd ⟨by simpa using hmem, hf⟩ (hname f)
  · rfl

def memberUnavailable : PublicErrorPayload := publicErrorPayload ⟨.unknownField, ""⟩

def planRejected : PublicErrorPayload := publicErrorPayload ⟨.planValidation, ""⟩

def overBudget : PublicErrorPayload := publicErrorPayload ⟨.budgetExceeded, ""⟩

theorem checkFieldUsage_invisible (hinvisible : f.isCatalogVisible access = false)
    (hdepth : f.relationDepth ≤ limits.maxJoins)
    (hfilter : ¬ (f.filterOnly = true ∧ usage ≠ .filter)) :
    publicOutcome (checkFieldUsage limits access usage name f) = .rejected memberUnavailable := by
  dsimp only [checkFieldUsage]
  rw [raiseIf_neg (by omega), ok_bind, raiseIf_neg hfilter, ok_bind]
  by_cases hsensitive : f.sensitive = true ∧ isSensitiveFieldAllowed f access = false
  · rw [raiseIf_pos hsensitive]
    rfl
  · rw [raiseIf_neg hsensitive, ok_bind]
    by_cases hpermission : permissionSetAllows access.permissions f.requiresPermission = false
    · rw [raiseIf_pos hpermission]
      rfl
    · rw [raiseIf_neg hpermission, ok_bind]
      have hhidden : f.llmVisible = false ∧
          (access.hidden || (f.sensitive && isSensitiveFieldAllowed f access)) = false := by
        unfold FieldSpec.isCatalogVisible at hinvisible
        unfold isSensitiveFieldAllowed at hsensitive ⊢
        rw [Bool.not_eq_false] at hpermission
        revert hinvisible hsensitive
        rw [hpermission]
        cases access.sensitive <;> cases access.hidden <;> cases f.sensitive <;>
          cases f.llmVisible <;> cases f.requiresPermission <;> simp
      rw [raiseIf_pos hhidden]
      rfl

theorem checkFieldUsage_leaky
    (hleak : limits.maxJoins < f.relationDepth ∨ (f.filterOnly = true ∧ usage ≠ .filter)) :
    publicOutcome (checkFieldUsage limits access usage name f) = .rejected overBudget ∨
      publicOutcome (checkFieldUsage limits access usage name f) = .rejected planRejected := by
  unfold checkFieldUsage
  by_cases hdepth : limits.maxJoins < f.relationDepth
  · rw [raiseIf_pos hdepth]
    exact .inl rfl
  · rw [raiseIf_neg hdepth, ok_bind, raiseIf_pos (hleak.resolve_left hdepth)]
    exact .inr rfl

theorem validateFieldUsage_deleted (h : Deletes access r other hidden hiddenMetrics)
    (hf : DeletedField r hidden name f) :
    (∀ g, validateFieldUsage limits access r usage name ≠ .ok g) ∧
    publicOutcome (validateFieldUsage limits access other usage name) =
      .rejected memberUnavailable ∧
    (publicOutcome (validateFieldUsage limits access r usage name) = .rejected memberUnavailable ↔
      ¬ LeakyField r hidden limits usage name) := by
  have hother : named? other.fields name = none := by
    rw [h.named?_field, if_pos (by simpa using hf.1)]
  have hcheck : ∀ c, publicOutcome (checkFieldUsage limits access usage name f) = .rejected c →
      publicOutcome (validateFieldUsage limits access r usage name) = .rejected c ∧
        ∀ g, validateFieldUsage limits access r usage name ≠ .ok g := by
    intro c hc
    unfold validateFieldUsage
    rw [hf.2]
    simp only
    cases hresult : checkFieldUsage limits access usage name f with
    | ok u => simp [hresult, publicOutcome] at hc
    | error e =>
      rw [hresult] at hc
      refine ⟨?_, fun g hg => by cases hg⟩
      cases e with
      | askLens exc => simpa [publicOutcome] using hc
      | builtin exc => cases hc
  have hleaky : LeakyField r hidden limits usage name ↔
      (limits.maxJoins < f.relationDepth ∨ (f.filterOnly = true ∧ usage ≠ .filter)) := by
    constructor
    · rintro ⟨g, hg, hleak⟩
      obtain rfl := Option.some.inj (hf.2.symm.trans hg.2)
      exact hleak
    · intro hleak
      exact ⟨f, hf, hleak⟩
  refine ⟨?_, ?_, ?_⟩
  · by_cases hleak : LeakyField r hidden limits usage name
    · rcases checkFieldUsage_leaky (hleaky.mp hleak) with hc | hc <;> exact (hcheck _ hc).2
    · rw [hleaky, not_or, not_lt] at hleak
      exact (hcheck _ (checkFieldUsage_invisible (h.fields_invisible _ _ (named?_eq_some.mp hf.2).2 hf.1) hleak.1
        hleak.2)).2
  · unfold validateFieldUsage
    rw [hother]
    rfl
  · constructor
    · intro hmember hleak
      rcases checkFieldUsage_leaky (hleaky.mp hleak) with hc | hc
      all_goals
        rw [(hcheck _ hc).1] at hmember
        exact absurd hmember (by decide)
    · intro hleak
      rw [hleaky, not_or, not_lt] at hleak
      exact (hcheck _ (checkFieldUsage_invisible (h.fields_invisible _ _ (named?_eq_some.mp hf.2).2 hf.1) hleak.1
        hleak.2)).1

theorem validateFieldUsage_same (h : Deletes access r other hidden hiddenMetrics)
    (hname : ∀ f, ¬ DeletedField r hidden name f) :
    validateFieldUsage limits access other usage name =
      validateFieldUsage limits access r usage name := by
  unfold validateFieldUsage
  rw [h.same_field hname, h.name]

theorem validateFieldUsage_alike (h : Deletes access r other hidden hiddenMetrics)
    (usage : FieldUsage) (name : PyStr) :
    Alike (validateFieldUsage limits access r usage name)
      (validateFieldUsage limits access other usage name)
      (LeakyField r hidden limits usage name) := by
  by_cases hdeleted : ∃ f, DeletedField r hidden name f
  · obtain ⟨f, hf⟩ := hdeleted
    obtain ⟨hstop, hother, houtcome⟩ :=
      validateFieldUsage_deleted h hf
    refine ⟨fun g => iff_of_false (hstop g) fun hg => ?_, ?_⟩
    · rw [hg] at hother
      cases hother
    · rw [hother]
      exact houtcome
  · have hnone : ∀ f, ¬ DeletedField r hidden name f := fun f hf => hdeleted ⟨f, hf⟩
    rw [validateFieldUsage_same h hnone]
    refine (Alike.refl _).congr (iff_of_false id ?_)
    rintro ⟨f, hf, -⟩
    exact hnone f hf

theorem validateSelect_alike (h : Deletes access r other hidden hiddenMetrics) (name : PyStr) :
    Alike (validateSelect limits access r name) (validateSelect limits access other name)
      (LeakyField r hidden limits .select name) :=
  ((validateFieldUsage_alike h .select name).bind fun _ _ => Alike.refl _).congr (by simp)

theorem validateFilter_alike (h : Deletes access r other hidden hiddenMetrics) (x : FilterSpec) :
    Alike (validateFilter limits access r x) (validateFilter limits access other x)
      (LeakyField r hidden limits .filter x.fieldName) :=
  ((validateFieldUsage_alike h .filter x.fieldName).bind fun _ _ => Alike.refl _).congr (by simp)

theorem validateGroupBy_alike (h : Deletes access r other hidden hiddenMetrics)
    (g : GroupBySpec) :
    Alike (validateGroupBy limits access r g) (validateGroupBy limits access other g)
      (LeakyField r hidden limits .groupBy g.fieldName) :=
  ((validateFieldUsage_alike h .groupBy g.fieldName).bind fun _ _ => Alike.refl _).congr (by simp)

/-- An `order_by` term that names a leaky field. -/
def LeakyOrder (r : SemanticResource) (hidden : List String) (limits : PlanLimits)
    (o : OrderBySpec) : Prop :=
  ∃ name, o.target = .field name ∧ LeakyField r hidden limits .orderBy name

theorem validateOrderTerm_alike (h : Deletes access r other hidden hiddenMetrics)
    (keys names : List PyStr) (o : OrderBySpec) :
    Alike (validateOrderTerm limits access r keys names o)
      (validateOrderTerm limits access other keys names o) (LeakyOrder r hidden limits o) := by
  unfold validateOrderTerm LeakyOrder
  cases o.target with
  | field name =>
    exact ((validateFieldUsage_alike h .orderBy name).bind fun _ _ => Alike.refl _).congr
      (by simp)
  | metric name => exact (Alike.refl _).congr (by simp)

/-! ## Metrics -/

def requestedMetric (limits : PlanLimits) (access : Access) (r : SemanticResource)
    (name : PyStr) : Py Unit :=
  match named? r.metrics name with
  | none =>
    .error (ErrorClass.unknownMetric.exc
      s!"Unknown metric {name.repr} for resource {pyRepr r.name}.")
  | some metric => validateMetricUsage limits access metric

theorem validateMetrics_cons (spec : MetricSpec) (rest : List MetricSpec) (seen : List PyStr) :
    validateMetrics limits access r (spec :: rest) seen =
      (raiseIf (spec.metricName ∈ seen)
          (planInvalid s!"Duplicate metric requested: {spec.metricName.repr}.") >>= fun _ =>
        requestedMetric limits access r spec.metricName >>= fun _ =>
          validateMetrics limits access r rest (spec.metricName :: seen)) := by
  unfold requestedMetric
  rw [validateMetrics]
  cases named? r.metrics spec.metricName <;> rfl

theorem requestedMetric_alike (h : Deletes access r other hidden hiddenMetrics) (name : PyStr) :
    Alike (requestedMetric limits access r name) (requestedMetric limits access other name)
      (LeakyMetric r hiddenMetrics limits name) := by
  unfold requestedMetric
  rw [h.named?_metric, h.name]
  by_cases hmem : name.shown ∈ hiddenMetrics
  · rw [if_pos (by simpa using hmem)]
    cases hm : named? r.metrics name with
    | none => exact (Alike.refl _).congr (by simp [LeakyMetric, hm])
    | some m =>
      have hdenied : permissionSetAllows access.permissions m.requiresPermission = false :=
        h.metrics_invisible _ m (named?_eq_some.mp hm).2 hmem
      have hleaky : LeakyMetric r hiddenMetrics limits name ↔ limits.maxJoins < m.relationDepth := by
        simp [LeakyMetric, hmem, hm]
      unfold validateMetricUsage
      by_cases hdepth : limits.maxJoins < m.relationDepth
      · simp only [raiseIf_pos hdepth, error_bind]
        refine ⟨fun _ => iff_of_false (fun hx => by cases hx) (fun hx => by cases hx), ?_⟩
        rw [hleaky]
        refine iff_of_false (fun hx => ?_) (not_not.mpr hdepth)
        have hcodes : planRejected = memberUnavailable := PublicOutcome.rejected.inj hx
        exact absurd hcodes (by decide)
      · simp only [raiseIf_neg hdepth, ok_bind, raiseIf_pos hdenied]
        refine ⟨fun _ => iff_of_false (fun hx => by cases hx) (fun hx => by cases hx), ?_⟩
        rw [hleaky]
        exact iff_of_true rfl hdepth
  · rw [if_neg (by simpa using hmem)]
    exact (Alike.refl _).congr (by simp [LeakyMetric, hmem])

/-- The first requested metric that does not pass satisfies `stops`. -/
def FirstStoppedMetric (r : SemanticResource) (limits : PlanLimits) (access : Access)
    (stops : PyStr → Prop) (specs : List MetricSpec) (seen : List PyStr) : Prop :=
  ∃ pre spec post names, specs = pre ++ spec :: post ∧
    validateMetrics limits access r pre seen = .ok names ∧ spec.metricName ∉ names ∧
      stops spec.metricName

theorem firstStoppedMetric_cons {stops : PyStr → Prop} {spec : MetricSpec}
    {rest : List MetricSpec} {seen : List PyStr} :
    FirstStoppedMetric r limits access stops (spec :: rest) seen ↔
      spec.metricName ∉ seen ∧ (stops spec.metricName ∨
        (requestedMetric limits access r spec.metricName = .ok () ∧
          FirstStoppedMetric r limits access stops rest (spec.metricName :: seen))) := by
  constructor
  · rintro ⟨pre, s, post, names, hspecs, hpre, hnew, hstops⟩
    cases pre with
    | nil =>
      obtain ⟨rfl, rfl⟩ : spec = s ∧ rest = post := by simpa using hspecs
      obtain rfl : seen = names := by simpa [validateMetrics] using hpre
      exact ⟨hnew, .inl hstops⟩
    | cons t pre =>
      obtain ⟨rfl, rfl⟩ : spec = t ∧ rest = pre ++ s :: post := by simpa using hspecs
      rw [validateMetrics_cons] at hpre
      obtain ⟨_, hseen, hpre⟩ := bind_eq_ok.mp hpre
      obtain ⟨_, hmetric, hpre⟩ := bind_eq_ok.mp hpre
      rw [raiseIf_eq_ok] at hseen
      exact ⟨hseen, .inr ⟨hmetric, pre, s, post, names, rfl, hpre, hnew, hstops⟩⟩
  · rintro ⟨hseen, hstops | ⟨hmetric, pre, s, post, names, rfl, hpre, hnew, hstops⟩⟩
    · exact ⟨[], spec, rest, seen, rfl, rfl, hseen, hstops⟩
    · refine ⟨spec :: pre, s, post, names, rfl, ?_, hnew, hstops⟩
      rw [validateMetrics_cons, raiseIf_neg hseen, ok_bind, hmetric, ok_bind]
      exact hpre

def FirstLeakyMetric (r : SemanticResource) (hiddenMetrics : List String) (limits : PlanLimits)
    (access : Access) (specs : List MetricSpec) (seen : List PyStr) : Prop :=
  ∃ pre spec post names, specs = pre ++ spec :: post ∧
    validateMetrics limits access r pre seen = .ok names ∧ spec.metricName ∉ names ∧
      LeakyMetric r hiddenMetrics limits spec.metricName

theorem firstLeakyMetric_cons {spec : MetricSpec} {rest : List MetricSpec} {seen : List PyStr} :
    FirstLeakyMetric r hiddenMetrics limits access (spec :: rest) seen ↔
      spec.metricName ∉ seen ∧ (LeakyMetric r hiddenMetrics limits spec.metricName ∨
        (requestedMetric limits access r spec.metricName = .ok () ∧
          FirstLeakyMetric r hiddenMetrics limits access rest (spec.metricName :: seen))) :=
  firstStoppedMetric_cons

theorem validateMetrics_alike (h : Deletes access r other hidden hiddenMetrics)
    (specs : List MetricSpec) (seen : List PyStr) :
    Alike (validateMetrics limits access r specs seen)
      (validateMetrics limits access other specs seen)
      (FirstLeakyMetric r hiddenMetrics limits access specs seen) := by
  induction specs generalizing seen with
  | nil => exact (Alike.refl _).congr (by simp [FirstLeakyMetric])
  | cons spec rest ih =>
    rw [validateMetrics_cons, validateMetrics_cons]
    refine ((Alike.refl _).bind fun _ _ => (requestedMetric_alike h spec.metricName).bind
      fun _ _ => ih (spec.metricName :: seen)).congr ?_
    rw [firstLeakyMetric_cons]
    simp only [false_or, Unique.exists_iff, raiseIf_eq_ok]

end

/-! ## Relationship edges -/

section

variable {access : Access} {r other : SemanticResource} {hidden hiddenMetrics : List String}
  {limits : PlanLimits} {plan : QueryPlan}

theorem deleted_edges_subset (h : Deletes access r other hidden hiddenMetrics)
    (edges : FieldSpec → List Edge) (name : PyStr) :
    ((named? other.fields name).map edges).getD [] ⊆ ((named? r.fields name).map edges).getD [] := by
  rw [h.named?_field]
  split_ifs
  · exact List.nil_subset _
  · exact List.Subset.refl _

theorem fieldToManyEdges_subset (h : Deletes access r other hidden hiddenMetrics) :
    fieldToManyEdges other plan ⊆ fieldToManyEdges r plan := by
  intro edge hedge
  simp only [fieldToManyEdges, List.mem_eraseDups, List.mem_flatMap] at hedge ⊢
  obtain ⟨name, hname, hedge⟩ := hedge
  exact ⟨name, hname, deleted_edges_subset h _ name hedge⟩

theorem collectRelationshipEdges_le (h : Deletes access r other hidden hiddenMetrics) :
    (collectRelationshipEdges other plan).length ≤ (collectRelationshipEdges r plan).length := by
  apply Distinct.length_eraseDups_mono
  intro edge hedge
  rw [List.mem_append, List.mem_flatMap, List.mem_flatMap] at hedge ⊢
  rcases hedge with ⟨name, hname, hedge⟩ | ⟨spec, hspec, hedge⟩
  · exact .inl ⟨name, hname, deleted_edges_subset h _ name hedge⟩
  · refine .inr ⟨spec, hspec, ?_⟩
    rw [h.named?_metric] at hedge
    split_ifs at hedge
    · cases hedge
    · exact hedge

/-- No reference of the plan is to a deleted member. -/
structure RefersToKept (r : SemanticResource) (hidden hiddenMetrics : List String)
    (plan : QueryPlan) : Prop where
  fields : ∀ name ∈ planFieldReferences plan, ∀ f, ¬ DeletedField r hidden name f
  metrics : ∀ spec ∈ plan.metrics, spec.metric ∈ hiddenMetrics →
    named? r.metrics spec.metricName = none

theorem Deletes.same_metric (h : Deletes access r other hidden hiddenMetrics) {name : PyStr}
    (hname : name.shown ∈ hiddenMetrics → named? r.metrics name = none) :
    named? other.metrics name = named? r.metrics name := by
  rw [h.named?_metric]
  split_ifs with hmem
  · exact (hname (by simpa using hmem)).symm
  · rfl

theorem collectRelationshipEdges_same (h : Deletes access r other hidden hiddenMetrics)
    (hkept : RefersToKept r hidden hiddenMetrics plan) :
    collectRelationshipEdges other plan = collectRelationshipEdges r plan := by
  have hfields : (planFieldReferences plan).flatMap (fun name =>
      ((named? other.fields name).map FieldSpec.relationshipEdges).getD []) =
      (planFieldReferences plan).flatMap fun name =>
        ((named? r.fields name).map FieldSpec.relationshipEdges).getD [] := by
    apply List.flatMap_congr
    intro name hname
    rw [h.same_field (hkept.fields name hname)]
  have hmetrics : plan.metrics.flatMap (fun spec =>
      ((named? other.metrics spec.metricName).map Metric.relationshipEdges).getD []) =
      plan.metrics.flatMap fun spec =>
        ((named? r.metrics spec.metricName).map Metric.relationshipEdges).getD [] := by
    apply List.flatMap_congr
    intro spec hspec
    rw [h.same_metric (hkept.metrics spec hspec)]
  unfold collectRelationshipEdges
  rw [hfields, hmetrics]

theorem fieldToManyEdges_same (h : Deletes access r other hidden hiddenMetrics)
    (hkept : ∀ name ∈ planFieldReferences plan, ∀ f, ¬ DeletedField r hidden name f) :
    fieldToManyEdges other plan = fieldToManyEdges r plan := by
  unfold fieldToManyEdges
  congr 1
  apply List.flatMap_congr
  intro name hname
  rw [h.same_field (hkept name hname)]

/-! ## The grain of the metrics -/

/-- The tests of the aggregate policy on given edges and metrics. -/
def policyOn (fieldEdges : List Edge) (metrics : List Metric) : Py Unit := do
  raiseIf (1 < (fieldEdges ++ metrics.flatMap Metric.toManyRelationshipEdges).eraseDups.length)
    (planInvalid "Aggregate plans cannot combine independent to-many relationship paths.")
  if fieldEdges = [] then .ok () else metrics.forM (checkMetricGrain fieldEdges)

theorem checkMetricGrain_stops {fieldEdges : List Edge} {m : Metric}
    (h : checkMetricGrain fieldEdges m ≠ .ok ()) :
    ∃ msg, checkMetricGrain fieldEdges m = .error (planInvalid msg) := by
  unfold checkMetricGrain at h ⊢
  unfold raiseIf at h ⊢
  split_ifs at h ⊢
  all_goals first | exact ⟨_, rfl⟩ | exact absurd rfl h

theorem policyOn_stops {fieldEdges : List Edge} {metrics : List Metric}
    (h : policyOn fieldEdges metrics ≠ .ok ()) :
    publicOutcome (policyOn fieldEdges metrics) = .rejected planRejected := by
  unfold policyOn at h ⊢
  by_cases hmany : 1 < (fieldEdges ++
      metrics.flatMap Metric.toManyRelationshipEdges).eraseDups.length
  · rw [raiseIf_pos hmany]
    rfl
  · rw [raiseIf_neg hmany, ok_bind] at h ⊢
    split_ifs at h ⊢ with hempty
    · exact absurd rfl h
    · cases hloop : metrics.forM (checkMetricGrain fieldEdges) with
      | ok u => exact absurd hloop h
      | error e =>
        obtain ⟨pre, m, post, -, -, hm⟩ := forM_eq_error.mp hloop
        obtain ⟨msg, hmsg⟩ := checkMetricGrain_stops (by rw [hm]; intro hok; cases hok)
        rw [hm] at hmsg
        obtain rfl := Except.error.inj hmsg
        rfl

/-- Fewer edges of fields never fail where more of them passed. -/
theorem policyOn_mono {fieldEdges fewer : List Edge} {metrics : List Metric}
    (hsub : fewer ⊆ fieldEdges) (hnodup : fieldEdges.Nodup) (hfewer : fewer.Nodup)
    (h : policyOn fieldEdges metrics = .ok ()) : policyOn fewer metrics = .ok () := by
  obtain ⟨_, hone, h⟩ := bind_eq_ok.mp h
  rw [raiseIf_eq_ok, not_lt] at hone
  have hfewerOne : (fewer ++
      metrics.flatMap Metric.toManyRelationshipEdges).eraseDups.length ≤ 1 := by
    refine le_trans (Distinct.length_eraseDups_mono ?_) hone
    exact List.append_subset.mpr ⟨fun e he => List.mem_append_left _ (hsub he),
      List.subset_append_right _ _⟩
  unfold policyOn
  rw [raiseIf_neg (not_lt.mpr hfewerOne), ok_bind]
  by_cases hempty : fewer = []
  · rw [if_pos hempty]
  · have hsame : fewer = fieldEdges := by
      refine Distinct.eq_of_nodup_of_subset hfewer hnodup (fun a ha b hb => ?_) hsub hempty
      exact Distinct.eq_of_length_eraseDups_le_one hone (List.mem_append_left _ ha)
        (List.mem_append_left _ hb)
    rw [hsame] at hempty ⊢
    rw [if_neg hempty] at h ⊢
    exact h

theorem policy_eq {metrics : List Metric} (hintent : plan.intent = .aggregate)
    (hmetrics : plan.metrics.mapM (fun spec => metricAt r spec.metric) = .ok metrics) :
    validateAggregateRelationshipPolicy r plan = policyOn (fieldToManyEdges r plan) metrics := by
  unfold validateAggregateRelationshipPolicy policyOn
  rw [hintent]
  simp only [hmetrics, ok_bind]

def MetricsKept (r : SemanticResource) (hiddenMetrics : List String) (plan : QueryPlan) : Prop :=
  ∀ spec ∈ plan.metrics, spec.metric ∉ hiddenMetrics ∧ spec.metricName.IsText ∧
    ∃ m, r.metrics.get? spec.metric = some m

theorem Deletes.same_metricAt (h : Deletes access r other hidden hiddenMetrics) {spec : MetricSpec}
    (hspec : spec.metric ∉ hiddenMetrics ∧ spec.metricName.IsText ∧
      ∃ m, r.metrics.get? spec.metric = some m) :
    metricAt other spec.metric = metricAt r spec.metric := by
  have hsame : named? other.metrics spec.metricName = named? r.metrics spec.metricName :=
    h.same_metric fun hmem => absurd hmem hspec.1
  rw [named?_of_isText hspec.2.1, named?_of_isText hspec.2.1] at hsame
  unfold metricAt MetricSpec.metric
  rw [hsame]

/-- The policy of both runs, once the requested metrics are known. -/
theorem policy_spec (h : Deletes access r other hidden hiddenMetrics)
    (hmetrics : MetricsKept r hiddenMetrics plan) :
    (validateAggregateRelationshipPolicy r plan = .ok () →
      validateAggregateRelationshipPolicy other plan = .ok ()) ∧
    (validateAggregateRelationshipPolicy r plan ≠ .ok () →
      publicOutcome (validateAggregateRelationshipPolicy r plan) = .rejected planRejected) ∧
    (validateAggregateRelationshipPolicy other plan ≠ .ok () →
      publicOutcome (validateAggregateRelationshipPolicy other plan) = .rejected planRejected) := by
  cases hintent : plan.intent with
  | list =>
    unfold validateAggregateRelationshipPolicy
    simp [hintent]
  | aggregate =>
    obtain ⟨metrics, hr⟩ := mapM_ok_iff.mpr fun spec hspec =>
      (hmetrics spec hspec).2.2.imp fun _ hm => metricAt_ok.mpr hm
    have hother : plan.metrics.mapM (fun spec => metricAt other spec.metric) = .ok metrics := by
      rw [← hr]
      apply mapM_congr
      intro spec hspec
      exact h.same_metricAt (hmetrics spec hspec)
    rw [policy_eq hintent hr, policy_eq hintent hother]
    refine ⟨fun hok => ?_, policyOn_stops, policyOn_stops⟩
    exact policyOn_mono (fieldToManyEdges_subset h) (Distinct.nodup_eraseDups _)
      (Distinct.nodup_eraseDups _) hok

/-! ## The validator -/

/-- The checks before the relationship edges are counted. -/
def PassesCounts (limits : PlanLimits) (plan : QueryPlan) : Prop :=
  validatePlanShape plan = .ok () ∧ validateCounts plan limits = .ok ()

/-- The checks before the members. -/
def PassesLimits (env : Environment) (r : SemanticResource) (limits : PlanLimits)
    (plan : QueryPlan) : Prop :=
  PassesCounts limits plan ∧ validateEdgeBudget r limits plan = .ok () ∧
    validateNoMeaninglessDuplicates env plan = .ok ()

def checksAfterEdges (env : Environment) (r : SemanticResource) (limits : PlanLimits)
    (access : Access) (plan : QueryPlan) : Py Unit := do
  validateNoMeaninglessDuplicates env plan
  validateNoMeaninglessDuplicates env plan
  validatePlanFields r limits access plan

/-- The `order_by` loop. -/
def checkOrder (r : SemanticResource) (limits : PlanLimits) (access : Access) (plan : QueryPlan)
    (metricNames : List PyStr) : Py Unit :=
  plan.orderBy.forM (validateOrderTerm limits access r
    (plan.selectNames ++ plan.groupBy.map GroupBySpec.fieldName) metricNames)

/-- The places where validation on `r` stops at a deleted member with an error that it does not
report without it. -/
inductive Leaks (env : Environment) (r other : SemanticResource)
    (hidden hiddenMetrics : List String) (limits : PlanLimits) (access : Access)
    (plan : QueryPlan) : Prop where
  /-- The edges of deleted members exceed the budget. -/
  | edges (reached : PassesCounts limits plan)
    (exceeds : limits.maxRelationshipEdges < (collectRelationshipEdges r plan).length)
    (fits : (collectRelationshipEdges other plan).length ≤ limits.maxRelationshipEdges)
    (later : publicOutcome (checksAfterEdges env other limits access plan) ≠ .rejected overBudget)
  | select (reached : PassesLimits env r limits plan)
    (leak : FirstLeak (validateSelect limits access r) (LeakyField r hidden limits .select)
      plan.selectNames)
  | filters (reached : PassesLimits env r limits plan)
    (select : plan.selectNames.forM (validateSelect limits access r) = .ok ())
    (leak : FirstLeak (validateFilter limits access r)
      (fun x => LeakyField r hidden limits .filter x.fieldName) plan.filters)
  | groupBy (reached : PassesLimits env r limits plan)
    (select : plan.selectNames.forM (validateSelect limits access r) = .ok ())
    (filters : plan.filters.forM (validateFilter limits access r) = .ok ())
    (leak : FirstLeak (validateGroupBy limits access r)
      (fun g => LeakyField r hidden limits .groupBy g.fieldName) plan.groupBy)
  | metrics (reached : PassesLimits env r limits plan)
    (select : plan.selectNames.forM (validateSelect limits access r) = .ok ())
    (filters : plan.filters.forM (validateFilter limits access r) = .ok ())
    (groupBy : plan.groupBy.forM (validateGroupBy limits access r) = .ok ())
    (leak : FirstLeakyMetric r hiddenMetrics limits access plan.metrics [])
  /-- The to-many edges of deleted `order_by` fields break the aggregate policy. -/
  | policy (reached : PassesLimits env r limits plan)
    (select : plan.selectNames.forM (validateSelect limits access r) = .ok ())
    (filters : plan.filters.forM (validateFilter limits access r) = .ok ())
    (groupBy : plan.groupBy.forM (validateGroupBy limits access r) = .ok ())
    (names : List PyStr) (metrics : validateMetrics limits access r plan.metrics [] = .ok names)
    (breaks : validateAggregateRelationshipPolicy r plan ≠ .ok ())
    (keeps : validateAggregateRelationshipPolicy other plan = .ok ())
    (later : publicOutcome (checkOrder other limits access plan names) ≠ .rejected planRejected)
  | orderBy (reached : PassesLimits env r limits plan)
    (select : plan.selectNames.forM (validateSelect limits access r) = .ok ())
    (filters : plan.filters.forM (validateFilter limits access r) = .ok ())
    (groupBy : plan.groupBy.forM (validateGroupBy limits access r) = .ok ())
    (names : List PyStr) (metrics : validateMetrics limits access r plan.metrics [] = .ok names)
    (policy : validateAggregateRelationshipPolicy r plan = .ok ())
    (leak : FirstLeak (validateOrderTerm limits access r
      (plan.selectNames ++ plan.groupBy.map GroupBySpec.fieldName) names) (LeakyOrder r hidden limits)
      plan.orderBy)

theorem kept_of_usage (h : Deletes access r other hidden hiddenMetrics) {usage : FieldUsage}
    {name : PyStr} {g : FieldSpec}
    (hok : validateFieldUsage limits access other usage name = .ok g) :
    ∀ f, ¬ DeletedField r hidden name f := by
  intro f hf
  have hother : named? other.fields name = none := by
    rw [h.named?_field, if_pos (by simpa using hf.1)]
  obtain ⟨htext, hg, -⟩ := validateFieldUsage_ok.mp hok
  rw [named?_of_isText htext, hg] at hother
  cases hother

/-- A plan whose references all pass without the deleted members refers to none of them. -/
theorem kept_of_loops (h : Deletes access r other hidden hiddenMetrics)
    (hselect : plan.selectNames.forM (validateSelect limits access other) = .ok ())
    (hfilters : plan.filters.forM (validateFilter limits access other) = .ok ())
    (hgroupBy : plan.groupBy.forM (validateGroupBy limits access other) = .ok ())
    {names : List PyStr} (horder : checkOrder other limits access plan names = .ok ()) :
    ∀ name ∈ planFieldReferences plan, ∀ f, ¬ DeletedField r hidden name f := by
  intro name hname
  simp only [planFieldReferences, List.mem_append] at hname
  rcases hname with ((hname | hname) | hname) | hname
  · obtain ⟨g, hg, -⟩ := bind_eq_ok.mp (forM_eq_ok.mp hselect name hname)
    exact kept_of_usage h hg
  · obtain ⟨x, hx, rfl⟩ := List.mem_map.mp hname
    obtain ⟨g, hg, -⟩ := bind_eq_ok.mp (forM_eq_ok.mp hfilters x hx)
    exact kept_of_usage h hg
  · obtain ⟨x, hx, rfl⟩ := List.mem_map.mp hname
    obtain ⟨g, hg, -⟩ := bind_eq_ok.mp (forM_eq_ok.mp hgroupBy x hx)
    exact kept_of_usage h hg
  · obtain ⟨o, ho, hname⟩ := List.mem_filterMap.mp hname
    have hterm := forM_eq_ok.mp horder o ho
    unfold OrderBySpec.fieldName? at hname
    unfold validateOrderTerm at hterm
    split at hname
    · rename_i n hn
      obtain rfl : n = name := by simpa using hname
      simp only [hn] at hterm
      obtain ⟨g, hg, -⟩ := bind_eq_ok.mp hterm
      exact kept_of_usage h hg
    · cases hname

theorem metricsKept_of_ok (h : Deletes access r other hidden hiddenMetrics) {names : List PyStr}
    (hmetrics : validateMetrics limits access r plan.metrics [] = .ok names) :
    MetricsKept r hiddenMetrics plan := by
  intro spec hspec
  obtain ⟨-, -, husable, -⟩ := validateMetrics_ok hmetrics
  obtain ⟨htext, m, hm, husage⟩ := husable spec hspec
  refine ⟨fun hmem => ?_, htext, m, hm⟩
  have hdenied : permissionSetAllows access.permissions m.requiresPermission = false :=
    h.metrics_invisible _ m hm hmem
  obtain ⟨_, -, husage⟩ := bind_eq_ok.mp husage
  rw [raiseIf_eq_ok] at husage
  exact husage hdenied

theorem policyAndOrder_alike (h : Deletes access r other hidden hiddenMetrics)
    (hselect : plan.selectNames.forM (validateSelect limits access other) = .ok ())
    (hfilters : plan.filters.forM (validateFilter limits access other) = .ok ())
    (hgroupBy : plan.groupBy.forM (validateGroupBy limits access other) = .ok ())
    {names : List PyStr}
    (hmetrics : validateMetrics limits access r plan.metrics [] = .ok names) :
    Alike
      (validateAggregateRelationshipPolicy r plan >>= fun _ =>
        checkOrder r limits access plan names)
      (validateAggregateRelationshipPolicy other plan >>= fun _ =>
        checkOrder other limits access plan names)
      ((validateAggregateRelationshipPolicy r plan = .ok () ∧
          FirstLeak (validateOrderTerm limits access r
            (plan.selectNames ++ plan.groupBy.map GroupBySpec.fieldName) names)
            (LeakyOrder r hidden limits) plan.orderBy) ∨
        (validateAggregateRelationshipPolicy r plan ≠ .ok () ∧
          validateAggregateRelationshipPolicy other plan = .ok () ∧
          publicOutcome (checkOrder other limits access plan names) ≠
            .rejected planRejected)) := by
  have hkept := metricsKept_of_ok h hmetrics
  obtain ⟨hpass, hr, hother⟩ := policy_spec h hkept
  refine alike_of_one_sided hpass (fun hx hy => by rw [hr hx, hother hy]) (fun _ => ?_)
    (fun hx hy u horder => hx ?_) planRejected hr
  · exact Alike.forM fun o _ => validateOrderTerm_alike h _ _ o
  · have hfields := kept_of_loops h hselect hfilters hgroupBy horder
    rw [← hy]
    unfold validateAggregateRelationshipPolicy
    rw [fieldToManyEdges_same h hfields]
    have hsame : plan.metrics.mapM (fun spec => metricAt other spec.metric) =
        plan.metrics.mapM fun spec => metricAt r spec.metric := by
      apply mapM_congr
      intro spec hspec
      exact h.same_metricAt (hkept spec hspec)
    rw [hsame]

def MembersLeak (r other : SemanticResource) (hidden hiddenMetrics : List String)
    (limits : PlanLimits) (access : Access) (plan : QueryPlan) : Prop :=
  FirstLeak (validateSelect limits access r) (LeakyField r hidden limits .select) plan.selectNames ∨
  (plan.selectNames.forM (validateSelect limits access r) = .ok () ∧
    (FirstLeak (validateFilter limits access r)
      (fun x => LeakyField r hidden limits .filter x.fieldName) plan.filters ∨
    (plan.filters.forM (validateFilter limits access r) = .ok () ∧
      (FirstLeak (validateGroupBy limits access r)
        (fun g => LeakyField r hidden limits .groupBy g.fieldName) plan.groupBy ∨
      (plan.groupBy.forM (validateGroupBy limits access r) = .ok () ∧
        (FirstLeakyMetric r hiddenMetrics limits access plan.metrics [] ∨
        ∃ names, validateMetrics limits access r plan.metrics [] = .ok names ∧
          ((validateAggregateRelationshipPolicy r plan = .ok () ∧
            FirstLeak (validateOrderTerm limits access r
              (plan.selectNames ++ plan.groupBy.map GroupBySpec.fieldName) names)
              (LeakyOrder r hidden limits) plan.orderBy) ∨
          (validateAggregateRelationshipPolicy r plan ≠ .ok () ∧
            validateAggregateRelationshipPolicy other plan = .ok () ∧
            publicOutcome (checkOrder other limits access plan names) ≠
              .rejected planRejected))))))))

theorem validatePlanFields_alike (h : Deletes access r other hidden hiddenMetrics) :
    Alike (validatePlanFields r limits access plan) (validatePlanFields other limits access plan)
      (MembersLeak r other hidden hiddenMetrics limits access plan) := by
  have hselects : Alike (plan.selectNames.forM (validateSelect limits access r))
      (plan.selectNames.forM (validateSelect limits access other)) _ :=
    Alike.forM fun name _ => validateSelect_alike h name
  have hfilters : Alike (plan.filters.forM (validateFilter limits access r))
      (plan.filters.forM (validateFilter limits access other)) _ :=
    Alike.forM fun x _ => validateFilter_alike h x
  have hgroups : Alike (plan.groupBy.forM (validateGroupBy limits access r))
      (plan.groupBy.forM (validateGroupBy limits access other)) _ :=
    Alike.forM fun g _ => validateGroupBy_alike h g
  have hmetrics : Alike (validateMetrics limits access r plan.metrics [])
      (validateMetrics limits access other plan.metrics []) _ :=
    validateMetrics_alike h plan.metrics []
  unfold validatePlanFields MembersLeak
  refine (hselects.bind fun _ hs => hfilters.bind fun _ hf => hgroups.bind fun _ hg =>
    hmetrics.bind fun names hm => policyAndOrder_alike h ((hselects.1 _).mp hs)
      ((hfilters.1 _).mp hf) ((hgroups.1 _).mp hg) hm).congr ?_
  simp only [Unique.exists_iff]

theorem kept_of_members (h : Deletes access r other hidden hiddenMetrics)
    (hok : validatePlanFields other limits access plan = .ok ()) :
    RefersToKept r hidden hiddenMetrics plan := by
  simp only [validatePlanFields, bind_eq_ok] at hok
  obtain ⟨_, hselect, _, hfilters, _, hgroupBy, names, hmetrics, _, -, horder⟩ := hok
  refine ⟨kept_of_loops h hselect hfilters hgroupBy horder, fun spec hspec hmem => ?_⟩
  have hr : validateMetrics limits access r plan.metrics [] = .ok names :=
    ((validateMetrics_alike h plan.metrics []).1 names).mpr hmetrics
  exact absurd hmem (metricsKept_of_ok h hr spec hspec).1

theorem leaks_iff {env : Environment} :
    Leaks env r other hidden hiddenMetrics limits access plan ↔
      PassesCounts limits plan ∧
        ((validateEdgeBudget r limits plan = .ok () ∧
          validateNoMeaninglessDuplicates env plan = .ok () ∧
          MembersLeak r other hidden hiddenMetrics limits access plan) ∨
        (validateEdgeBudget r limits plan ≠ .ok () ∧
          validateEdgeBudget other limits plan = .ok () ∧
          publicOutcome (checksAfterEdges env other limits access plan) ≠
            .rejected overBudget)) := by
  have hbudget : ∀ s : SemanticResource, validateEdgeBudget s limits plan = .ok () ↔
      (collectRelationshipEdges s plan).length ≤ limits.maxRelationshipEdges := by
    intro s
    unfold validateEdgeBudget
    rw [raiseIf_eq_ok, not_lt]
  constructor
  · intro hleaks
    cases hleaks with
    | edges hreached hexceeds hfits hlater =>
      refine ⟨hreached, .inr ⟨?_, (hbudget other).mpr hfits, hlater⟩⟩
      rw [ne_eq, hbudget]
      omega
    | select hreached hleak =>
      exact ⟨hreached.1, .inl ⟨hreached.2.1, hreached.2.2, .inl hleak⟩⟩
    | filters hreached hs hleak =>
      exact ⟨hreached.1, .inl ⟨hreached.2.1, hreached.2.2, .inr ⟨hs, .inl hleak⟩⟩⟩
    | groupBy hreached hs hf hleak =>
      exact ⟨hreached.1, .inl ⟨hreached.2.1, hreached.2.2,
        .inr ⟨hs, .inr ⟨hf, .inl hleak⟩⟩⟩⟩
    | metrics hreached hs hf hg hleak =>
      exact ⟨hreached.1, .inl ⟨hreached.2.1, hreached.2.2,
        .inr ⟨hs, .inr ⟨hf, .inr ⟨hg, .inl hleak⟩⟩⟩⟩⟩
    | policy hreached hs hf hg names hm hbreaks hkeeps hlater =>
      exact ⟨hreached.1, .inl ⟨hreached.2.1, hreached.2.2,
        .inr ⟨hs, .inr ⟨hf, .inr ⟨hg, .inr ⟨names, hm, .inr ⟨hbreaks, hkeeps, hlater⟩⟩⟩⟩⟩⟩⟩
    | orderBy hreached hs hf hg names hm hpolicy hleak =>
      exact ⟨hreached.1, .inl ⟨hreached.2.1, hreached.2.2,
        .inr ⟨hs, .inr ⟨hf, .inr ⟨hg, .inr ⟨names, hm, .inl ⟨hpolicy, hleak⟩⟩⟩⟩⟩⟩⟩
  · rintro ⟨hcounts, ⟨hedges, hduplicates, hmembers⟩ | ⟨hexceeds, hfits, hlater⟩⟩
    · have hreached : PassesLimits env r limits plan := ⟨hcounts, hedges, hduplicates⟩
      rcases hmembers with hleak | ⟨hs, hleak | ⟨hf, hleak | ⟨hg, hleak | ⟨names, hm,
        ⟨hpolicy, hleak⟩ | ⟨hbreaks, hkeeps, hlater⟩⟩⟩⟩⟩
      · exact .select hreached hleak
      · exact .filters hreached hs hleak
      · exact .groupBy hreached hs hf hleak
      · exact .metrics hreached hs hf hg hleak
      · exact .orderBy hreached hs hf hg names hm hpolicy hleak
      · exact .policy hreached hs hf hg names hm hbreaks hkeeps hlater
    · rw [ne_eq, hbudget, not_le] at hexceeds
      exact .edges hcounts hexceeds ((hbudget other).mp hfits) hlater

theorem validateBeforeNormalization_alike (h : Deletes access r other hidden hiddenMetrics)
    (env : Environment) :
    Alike (validateBeforeNormalization env r limits access plan)
      (validateBeforeNormalization env other limits access plan)
      (Leaks env r other hidden hiddenMetrics limits access plan) := by
  have hedges : Alike
      (validateEdgeBudget r limits plan >>= fun _ => checksAfterEdges env r limits access plan)
      (validateEdgeBudget other limits plan >>= fun _ =>
        checksAfterEdges env other limits access plan)
      ((validateEdgeBudget r limits plan = .ok () ∧
          validateNoMeaninglessDuplicates env plan = .ok () ∧
          MembersLeak r other hidden hiddenMetrics limits access plan) ∨
        (validateEdgeBudget r limits plan ≠ .ok () ∧
          validateEdgeBudget other limits plan = .ok () ∧
          publicOutcome (checksAfterEdges env other limits access plan) ≠
            .rejected overBudget)) := by
    have hle : (collectRelationshipEdges other plan).length ≤
        (collectRelationshipEdges r plan).length := collectRelationshipEdges_le h
    have hstop : ∀ s : SemanticResource, validateEdgeBudget s limits plan ≠ .ok () →
        publicOutcome (validateEdgeBudget s limits plan) = .rejected overBudget := by
      intro s hs
      unfold validateEdgeBudget raiseIf at hs ⊢
      split_ifs at hs ⊢
      · rfl
      · exact absurd rfl hs
    refine alike_of_one_sided ?_ (fun hx hy => by rw [hstop r hx, hstop other hy]) (fun _ => ?_)
      (fun hx hy u hchecks => hx ?_) overBudget (hstop r)
    · unfold validateEdgeBudget
      rw [raiseIf_eq_ok, raiseIf_eq_ok]
      omega
    · have hmembers : Alike (validatePlanFields r limits access plan)
          (validatePlanFields other limits access plan) _ := validatePlanFields_alike h
      refine ((Alike.refl _).bind fun _ _ => (Alike.refl _).bind fun _ _ => hmembers).congr ?_
      simp only [false_or, Unique.exists_iff, and_self_left]
    · obtain ⟨_, -, hchecks⟩ := bind_eq_ok.mp hchecks
      obtain ⟨_, -, hchecks⟩ := bind_eq_ok.mp hchecks
      rw [← hy]
      unfold validateEdgeBudget
      rw [collectRelationshipEdges_same h (kept_of_members h hchecks)]
  have hflat : ∀ s, validateBeforeNormalization env s limits access plan =
      (validatePlanShape plan >>= fun _ => validateCounts plan limits >>= fun _ =>
        validateEdgeBudget s limits plan >>= fun _ =>
          checksAfterEdges env s limits access plan) := by
    intro s
    unfold validateBeforeNormalization validatePlanLimits checksAfterEdges
    simp only [bind_assoc]
  rw [hflat, hflat]
  refine ((Alike.refl _).bind fun _ _ => (Alike.refl _).bind fun _ _ => hedges).congr ?_
  rw [leaks_iff, PassesCounts, and_assoc]
  simp only [false_or, Unique.exists_iff]

/-- An invisible member can be told from an unknown one exactly at one of the leaks. -/
theorem validateForResource_outcome_iff (h : Deletes access r other hidden hiddenMetrics)
    (env : Environment) (p : QueryPlan) :
    publicOutcome (validateForResource env r limits access p) =
        publicOutcome (validateForResource env other limits access p) ↔
      (validateResourcePermission r access.permissions = .ok () →
        ¬ Leaks env r other hidden hiddenMetrics limits access (withDefaults r limits p)) := by
  have hpermission : validateResourcePermission other access.permissions =
      validateResourcePermission r access.permissions := by
    unfold validateResourcePermission
    rw [h.name, h.requiresPermission]
  have hdefaults : withDefaults other limits p = withDefaults r limits p := by
    unfold withDefaults
    rw [h.name]
  have hchecks : Alike
      (validateBeforeNormalization env r limits access (withDefaults r limits p))
      (validateBeforeNormalization env other limits access (withDefaults r limits p)) _ :=
    validateBeforeNormalization_alike h env
  have hvalues : ∀ u, validateBeforeNormalization env r limits access (withDefaults r limits p) =
      .ok u → normalizeFilterValues env.unicode other (withDefaults r limits p) =
        normalizeFilterValues env.unicode r (withDefaults r limits p) := by
    intro u hu
    rw [hchecks.1] at hu
    obtain ⟨_, -, hu⟩ := bind_eq_ok.mp hu
    obtain ⟨_, -, hu⟩ := bind_eq_ok.mp hu
    obtain ⟨_, -, hu⟩ := bind_eq_ok.mp hu
    have hkept := (kept_of_members h hu).fields
    have htexts := namesAreTexts_of_validPlanFields hu
    unfold normalizeFilterValues
    have hsame : (withDefaults r limits p).filters.mapM (normalizeFilter env.unicode other) =
        (withDefaults r limits p).filters.mapM (normalizeFilter env.unicode r) := by
      apply mapM_congr
      intro x hx
      have hfield : x.fieldName ∈ planFieldReferences (withDefaults r limits p) := by
        simp only [planFieldReferences, List.mem_append]
        exact .inl (.inl (.inr (List.mem_map_of_mem hx)))
      have hsame := h.same_field (hkept x.fieldName hfield)
      rw [named?_of_isText (htexts.filters x hx), named?_of_isText (htexts.filters x hx)] at hsame
      unfold normalizeFilter fieldAt FilterSpec.field
      rw [hsame]
    rw [hsame]
  unfold validateForResource
  simp only [hpermission, hdefaults]
  refine ((Alike.refl _).bind fun _ _ => hchecks.bind
    fun u hu => (?_ : Alike _ _ False)).2.trans ?_
  · rw [hvalues u hu]
    exact Alike.refl _
  · simp only [false_or, Unique.exists_iff, and_false, or_false, not_and]

/-- Deleting invisible members of the resource of a plan leaves the public outcome of validating
it unchanged exactly when no check leaks. -/
theorem deletion_concealed_iff {env : Environment} {registry reduced : CatalogRegistry env}
    {p : QueryPlan} (hr : registry.get p.resource = .ok r)
    (hother : reduced.get p.resource = .ok other)
    (h : Deletes access r other hidden hiddenMetrics) :
    publicOutcome (validateQueryPlan registry limits access p) =
        publicOutcome (validateQueryPlan reduced limits access p) ↔
      (validateResourcePermission r access.permissions = .ok () →
        ¬ Leaks env r other hidden hiddenMetrics limits access (withDefaults r limits p)) := by
  unfold validateQueryPlan
  rw [hr, hother, ok_bind, ok_bind]
  exact validateForResource_outcome_iff h env p

end

/-- Orders with their number and, for the permission `finance`, their day. -/
def financeOrders (day : Dict ConfigValue) : CatalogRegistry Sample.environment :=
  Sample.registryOf (Sample.orderArgs
    [("number", .config (Sample.fieldConfig "number" "string")),
      ("day", .config (("requires_permission", Sample.text "finance") :: day ++
        Sample.fieldConfig "day" "date"))])

def numberedOrders : CatalogRegistry Sample.environment :=
  Sample.registryOf (Sample.orderArgs [("number", .config (Sample.fieldConfig "number" "string"))])

theorem financeOrders_concealed_iff :
    ∃ r other, (financeOrders []).get "orders" = .ok r ∧ numberedOrders.get "orders" = .ok other ∧
      (publicOutcome (validateQueryPlan (financeOrders []) Sample.limits (.ofPermissions [])
          (Sample.listPlan ["day"])) =
        publicOutcome (validateQueryPlan numberedOrders Sample.limits (.ofPermissions [])
          (Sample.listPlan ["day"])) ↔
        (validateResourcePermission r [] = .ok () →
          ¬ Leaks Sample.environment r other ["day"] [] Sample.limits (.ofPermissions [])
            (withDefaults r Sample.limits (Sample.listPlan ["day"])))) := by
  refine ⟨_, _, rfl, rfl, deletion_concealed_iff rfl rfl ⟨rfl, rfl, rfl, rfl, ?_, ?_⟩⟩
  · intro name f hf hmem
    obtain rfl := List.mem_singleton.mp hmem
    obtain rfl := Option.some.inj hf
    rfl
  · intro name m _ hmem
    cases hmem

/-- Selecting an unauthorized filter-only day is an invalid plan; selecting an unknown field is an
unavailable member. -/
theorem filter_only_field_disclosed :
    ¬ ∀ (env : Environment) (registry reduced : CatalogRegistry env) (permissions : List String)
      (limits : PlanLimits) (p : QueryPlan) (r other : SemanticResource)
      (hidden hiddenMetrics : List String),
      registry.get p.resource = .ok r → reduced.get p.resource = .ok other →
        Deletes (.ofPermissions permissions) r other hidden hiddenMetrics →
          publicOutcome (validateQueryPlan registry limits (.ofPermissions permissions) p) =
            publicOutcome (validateQueryPlan reduced limits (.ofPermissions permissions) p) := by
  intro h
  have hsame := h _ (financeOrders [("filter_only", .obj (.bool true))]) numberedOrders []
    Sample.limits (Sample.listPlan ["day"]) _ _ ["day"] [] rfl rfl ⟨rfl, rfl, rfl, rfl, ?_, ?_⟩
  · exact absurd hsame (by decide +kernel)
  · intro name f hf hmem
    obtain rfl := List.mem_singleton.mp hmem
    obtain rfl := Option.some.inj hf
    rfl
  · intro name m _ hmem
    cases hmem

end AskLens.Planning
