import Mathlib.Data.List.Forall2

/-!
# Sequences of checks

A check is a computation in `Except ε` that either goes on or stops with the
first error. The rules below say when a sequence, a loop or a traversal of
checks goes through, and which error a stopped loop reports.
-/
namespace Checks

variable {ε α β : Type}

/-- Stop with `e` when `c` holds. -/
def raiseIf (c : Prop) [Decidable c] (e : ε) : Except ε Unit :=
  if c then .error e else .ok ()

@[simp] theorem raiseIf_eq_ok (c : Prop) [Decidable c] (e : ε) (u : Unit) :
    raiseIf c e = .ok u ↔ ¬ c := by
  unfold raiseIf
  split_ifs with h <;> simp [h]

@[simp] theorem raiseIf_eq_error (c : Prop) [Decidable c] (e e' : ε) :
    raiseIf c e = .error e' ↔ c ∧ e = e' := by
  unfold raiseIf
  split_ifs with h <;> simp [h]

theorem raiseIf_pos {c : Prop} [Decidable c] (h : c) (e : ε) : raiseIf c e = .error e :=
  if_pos h

theorem raiseIf_neg {c : Prop} [Decidable c] (h : ¬ c) (e : ε) : raiseIf c e = .ok () :=
  if_neg h

/-- A sequence goes through exactly when its first part does and the rest does on its value. -/
theorem bind_eq_ok {x : Except ε α} {f : α → Except ε β} {b : β} :
    x >>= f = .ok b ↔ ∃ a, x = .ok a ∧ f a = .ok b := by
  cases x <;> simp [bind, Except.bind]

/-- A sequence stops in its first part or, after that, in the rest. -/
theorem bind_eq_error {x : Except ε α} {f : α → Except ε β} {e : ε} :
    x >>= f = .error e ↔ x = .error e ∨ ∃ a, x = .ok a ∧ f a = .error e := by
  cases x <;> simp [bind, Except.bind]

@[simp] theorem ok_bind (a : α) (f : α → Except ε β) : (Except.ok a >>= f) = f a := rfl

@[simp] theorem error_bind (e : ε) (f : α → Except ε β) :
    ((Except.error e : Except ε α) >>= f) = .error e := rfl

@[simp] theorem pure_eq (a : α) : (pure a : Except ε α) = .ok a := rfl

@[simp] theorem throw_eq (e : ε) : (throw e : Except ε α) = .error e := rfl

/-- What is tested of the value of a computation that goes through. -/
theorem exists_of_any_toOption {x : Except ε α} {f : α → Bool}
    (h : x.toOption.any f = true) : ∃ a, x = .ok a ∧ f a = true := by
  cases x with
  | ok a => exact ⟨a, rfl, h⟩
  | error e => cases h

theorem forM_cons (a : α) (l : List α) (f : α → Except ε Unit) :
    (a :: l).forM f = f a >>= fun _ => l.forM f := rfl

/-- A loop of checks goes through exactly when every one of them does. -/
theorem forM_eq_ok {l : List α} {f : α → Except ε Unit} {u : Unit} :
    l.forM f = .ok u ↔ ∀ a ∈ l, f a = .ok ⟨⟩ := by
  induction l with
  | nil => simp [List.forM, pure, Except.pure]
  | cons a l ih =>
    rw [forM_cons, bind_eq_ok]
    constructor
    · rintro ⟨⟨⟩, ha, hl⟩
      simpa using ⟨ha, ih.mp hl⟩
    · intro h
      exact ⟨⟨⟩, h a (by simp), ih.mpr fun b hb => h b (by simp [hb])⟩

/-- A stopped loop reports the error of the first check that fails. -/
theorem forM_eq_error {l : List α} {f : α → Except ε Unit} {e : ε} :
    l.forM f = .error e ↔
      ∃ pre a post, l = pre ++ a :: post ∧ (∀ b ∈ pre, f b = .ok ⟨⟩) ∧ f a = .error e := by
  induction l with
  | nil => simp [List.forM, pure, Except.pure]
  | cons a l ih =>
    rw [forM_cons, bind_eq_error]
    constructor
    · rintro (ha | ⟨⟨⟩, ha, hl⟩)
      · exact ⟨[], a, l, rfl, by simp, ha⟩
      · obtain ⟨pre, b, post, rfl, hpre, hb⟩ := ih.mp hl
        exact ⟨a :: pre, b, post, rfl, by simpa using ⟨ha, hpre⟩, hb⟩
    · rintro ⟨pre, b, post, hl, hpre, hb⟩
      cases pre with
      | nil =>
        obtain ⟨rfl, rfl⟩ : a = b ∧ l = post := by simpa using hl
        exact .inl hb
      | cons c pre =>
        obtain ⟨rfl, rfl⟩ : a = c ∧ l = pre ++ b :: post := by simpa using hl
        refine .inr ⟨⟨⟩, hpre a (by simp), ih.mpr ⟨pre, b, post, rfl, ?_, hb⟩⟩
        exact fun d hd => hpre d (by simp [hd])

/-- A traversal goes through exactly when it does so pointwise. -/
theorem mapM_eq_ok {l : List α} {f : α → Except ε β} {r : List β} :
    l.mapM f = .ok r ↔ List.Forall₂ (fun a b => f a = .ok b) l r := by
  induction l generalizing r with
  | nil => simp [eq_comm]
  | cons a l ih =>
    rw [List.mapM_cons, bind_eq_ok]
    constructor
    · rintro ⟨b, hb, hr⟩
      obtain ⟨bs, hbs, hr⟩ := bind_eq_ok.mp hr
      obtain rfl : b :: bs = r := by simpa using hr
      exact .cons hb (ih.mp hbs)
    · intro h
      cases h with
      | cons hb hbs => exact ⟨_, hb, bind_eq_ok.mpr ⟨_, ih.mpr hbs, rfl⟩⟩

theorem mapM_congr {l : List α} {f g : α → Except ε β} (h : ∀ a ∈ l, f a = g a) :
    l.mapM f = l.mapM g := by
  induction l with
  | nil => rfl
  | cons a l ih =>
    rw [List.mapM_cons, List.mapM_cons, h a (by simp), ih fun b hb => h b (by simp [hb])]

section

variable {R : α → β → Prop} {l : List α} {r : List β}

theorem forall₂_mem_left (h : List.Forall₂ R l r) {a : α} (ha : a ∈ l) : ∃ b ∈ r, R a b := by
  induction h with
  | nil => simp at ha
  | cons hab _ ih =>
    rcases List.mem_cons.mp ha with rfl | ha
    · exact ⟨_, by simp, hab⟩
    · obtain ⟨b, hb, hr⟩ := ih ha
      exact ⟨b, by simp [hb], hr⟩

theorem forall₂_mem_right (h : List.Forall₂ R l r) {b : β} (hb : b ∈ r) : ∃ a ∈ l, R a b := by
  obtain ⟨a, ha, hr⟩ := forall₂_mem_left h.flip hb
  exact ⟨a, ha, hr⟩

theorem forall₂_and {S : α → β → Prop} (h : List.Forall₂ R l r) (h' : List.Forall₂ S l r) :
    List.Forall₂ (fun a b => R a b ∧ S a b) l r := by
  induction h with
  | nil => exact .nil
  | cons hab _ ih =>
    cases h' with
    | cons hab' h' => exact .cons ⟨hab, hab'⟩ (ih h')

theorem forall₂_split_left {pre post : List α} {a : α} (h : List.Forall₂ R (pre ++ a :: post) r) :
    ∃ pre' b post', r = pre' ++ b :: post' ∧ List.Forall₂ R pre pre' ∧ R a b := by
  induction pre generalizing r with
  | nil =>
    cases h with
    | cons hab _ => exact ⟨[], _, _, rfl, .nil, hab⟩
  | cons c pre ih =>
    cases h with
    | cons hcd hrest =>
      obtain ⟨pre', b, post', rfl, hpre, hab⟩ := ih hrest
      exact ⟨_ :: pre', b, post', rfl, .cons hcd hpre, hab⟩

theorem forall₂_split_right {pre post : List β} {b : β}
    (h : List.Forall₂ R l (pre ++ b :: post)) :
    ∃ pre' a post', l = pre' ++ a :: post' ∧ List.Forall₂ R pre' pre ∧ R a b := by
  obtain ⟨pre', a, post', hl, hpre, hab⟩ := forall₂_split_left h.flip
  exact ⟨pre', a, post', hl, hpre.flip, hab⟩

theorem forall₂_map_eq {γ : Type} {f : α → γ} {g : β → γ} (hfg : ∀ a b, R a b → g b = f a)
    (h : List.Forall₂ R l r) : r.map g = l.map f := by
  induction h with
  | nil => rfl
  | cons hab _ ih => rw [List.map_cons, List.map_cons, ih, hfg _ _ hab]

end

theorem exists_of_mem_mapM {l : List α} {f : α → Except ε β} {r : List β}
    (h : l.mapM f = .ok r) {b : β} (hb : b ∈ r) : ∃ a ∈ l, f a = .ok b :=
  forall₂_mem_right (mapM_eq_ok.mp h) hb

theorem exists_result_of_mapM {l : List α} {f : α → Except ε β} {r : List β}
    (h : l.mapM f = .ok r) {a : α} (ha : a ∈ l) : ∃ b ∈ r, f a = .ok b :=
  forall₂_mem_left (mapM_eq_ok.mp h) ha

theorem mapM_eq_error {l : List α} {f : α → Except ε β} {e : ε} :
    l.mapM f = .error e ↔
      ∃ pre a post, l = pre ++ a :: post ∧ (∀ b ∈ pre, ∃ c, f b = .ok c) ∧ f a = .error e := by
  induction l with
  | nil => simp
  | cons a l ih =>
    rw [List.mapM_cons, bind_eq_error]
    constructor
    · rintro (ha | ⟨c, ha, hl⟩)
      · exact ⟨[], a, l, rfl, by simp, ha⟩
      · rcases bind_eq_error.mp hl with hl | ⟨cs, _, hcs⟩
        · obtain ⟨pre, b, post, rfl, hpre, hb⟩ := ih.mp hl
          exact ⟨a :: pre, b, post, rfl, by simpa using ⟨⟨c, ha⟩, hpre⟩, hb⟩
        · simp at hcs
    · rintro ⟨pre, b, post, hl, hpre, hb⟩
      cases pre with
      | nil =>
        obtain ⟨rfl, rfl⟩ : a = b ∧ l = post := by simpa using hl
        exact .inl hb
      | cons c pre =>
        obtain ⟨rfl, rfl⟩ : a = c ∧ l = pre ++ b :: post := by simpa using hl
        obtain ⟨d, hd⟩ := hpre a (by simp)
        refine .inr ⟨d, hd, bind_eq_error.mpr (.inl (ih.mpr ⟨pre, b, post, rfl, ?_, hb⟩))⟩
        exact fun x hx => hpre x (by simp [hx])

/-- A traversal whose steps may stop with the allowed error `e`: it goes through or stops with `e`
exactly when every step before the first allowed stop succeeds. -/
theorem mapM_ok_or_stops_iff {f : α → Except ε β} {e : ε} {stops : α → Bool} {l : List α}
    (hstops : ∀ a ∈ l, f a = .error e ↔ stops a = true) :
    ((∃ r, l.mapM f = .ok r) ∨ l.mapM f = .error e) ↔
      ∀ a ∈ l.takeWhile fun a => !stops a, ∃ b, f a = .ok b := by
  induction l with
  | nil => simp
  | cons a l ih =>
    have ih := ih fun b hb => hstops b (by simp [hb])
    rw [List.mapM_cons]
    cases hs : stops a with
    | true =>
      have ha := (hstops a (by simp)).mpr hs
      simp [hs, ha]
    | false =>
      rw [List.takeWhile_cons, hs]
      cases ha : f a with
      | error e' =>
        have hne : e' ≠ e := by
          rintro rfl
          rw [(hstops a (by simp)).mp ha] at hs
          cases hs
        simp [ha, hne]
      | ok b =>
        simp only [ok_bind, Bool.not_false, if_true, List.forall_mem_cons, ha, Except.ok.injEq,
          exists_eq', true_and, ← ih]
        cases l.mapM f <;> simp

theorem mapM_ok_iff {f : α → Except ε β} {l : List α} :
    (∃ r, l.mapM f = .ok r) ↔ ∀ a ∈ l, ∃ b, f a = .ok b := by
  induction l with
  | nil => simp
  | cons a l ih =>
    rw [List.mapM_cons, List.forall_mem_cons, ← ih]
    cases f a with
    | error e => simp
    | ok b => cases l.mapM f <;> simp

/-- An invariant that every step keeps holds of the value a fold returns. -/
theorem foldlM_invariant {f : β → α → Except ε β} {P : β → Prop}
    (step : ∀ b a b', P b → f b a = .ok b' → P b') {l : List α} {b b' : β} (hb : P b)
    (h : l.foldlM f b = .ok b') : P b' := by
  induction l generalizing b with
  | nil =>
    obtain rfl : b = b' := by simpa using h
    exact hb
  | cons a l ih =>
    rw [List.foldlM_cons, bind_eq_ok] at h
    obtain ⟨c, hc, hl⟩ := h
    exact ih (step b a c hb hc) hl

/-! ## Checks that decide a condition -/

/-- The check returns `a` when `P` holds and stops with an error of the kind `E` otherwise. -/
structure Decides (E : ε → Prop) (P : Prop) (x : Except ε α) (a : α) : Prop where
  pass : P → x = .ok a
  stop : ¬ P → ∃ e, E e ∧ x = .error e

section

variable {E : ε → Prop} {P Q : Prop} {a : α} {b : β}

theorem Decides.congr {x : Except ε α} (h : Decides E P x a) (hPQ : Q ↔ P) : Decides E Q x a :=
  ⟨fun hQ => h.pass (hPQ.mp hQ), fun hQ => h.stop fun hP => hQ (hPQ.mpr hP)⟩

theorem decides_of_ok {x : Except ε α} (h : x = .ok a) : Decides E True x a :=
  ⟨fun _ => h, fun hfalse => absurd trivial hfalse⟩

theorem decides_raiseIf {c : Prop} [Decidable c] {e : ε} (he : E e) :
    Decides E (¬ c) (raiseIf c e) () := by
  refine ⟨fun hc => raiseIf_neg hc e, fun hc => ⟨e, he, raiseIf_pos (not_not.mp hc) e⟩⟩

theorem Decides.bind {x : Except ε α} {f : α → Except ε β} (hx : Decides E P x a)
    (hf : Decides E Q (f a) b) : Decides E (P ∧ Q) (x >>= f) b := by
  constructor
  · rintro ⟨hP, hQ⟩
    rw [hx.pass hP, ok_bind, hf.pass hQ]
  · intro h
    by_cases hP : P
    · obtain ⟨e, he, herror⟩ := hf.stop fun hQ => h ⟨hP, hQ⟩
      exact ⟨e, he, by rw [hx.pass hP, ok_bind, herror]⟩
    · obtain ⟨e, he, herror⟩ := hx.stop hP
      exact ⟨e, he, by rw [herror, error_bind]⟩

theorem Decides.bind_ok {x : Except ε α} {f : α → Except ε β} (hx : Decides E P x a)
    (hf : f a = .ok b) : Decides E P (x >>= f) b :=
  (hx.bind (decides_of_ok hf)).congr (and_true P).symm.to_iff

theorem decides_forM {l : List α} {f : α → Except ε Unit} {P : α → Prop}
    (h : ∀ a ∈ l, Decides E (P a) (f a) ()) : Decides E (∀ a ∈ l, P a) (l.forM f) () := by
  induction l with
  | nil => exact (decides_of_ok rfl).congr (by simp)
  | cons a l ih =>
    rw [forM_cons]
    have hhead := h a (by simp)
    have htail := ih fun b hb => h b (by simp [hb])
    exact (hhead.bind htail).congr (by simp)

end

/-! ## Errors that are not caught -/

section

variable {caught : ε → Bool}

/-- The computation stops with an error that is not caught. -/
def Escapes (caught : ε → Bool) (x : Except ε α) : Prop := ∃ e, x = .error e ∧ caught e = false

theorem not_escapes_ok (a : α) : ¬ Escapes caught (.ok a : Except ε α) := by
  rintro ⟨e, he, -⟩
  cases he

theorem escapes_error_iff {e : ε} :
    Escapes caught (.error e : Except ε α) ↔ caught e = false := by
  simp [Escapes]

theorem not_escapes_raiseIf {c : Prop} [Decidable c] {e : ε} (h : caught e = true) :
    ¬ Escapes caught (raiseIf c e) := by
  rintro ⟨e', he, hnot⟩
  obtain ⟨-, rfl⟩ := (raiseIf_eq_error c e e').mp he
  rw [h] at hnot
  cases hnot

/-- A sequence escapes in its first part or, after that, in the rest. -/
theorem escapes_bind_iff {x : Except ε α} {f : α → Except ε β} :
    Escapes caught (x >>= f) ↔ Escapes caught x ∨ ∃ a, x = .ok a ∧ Escapes caught (f a) := by
  cases x with
  | ok a => simp [not_escapes_ok]
  | error e => simp [escapes_error_iff]

theorem not_escapes_bind {x : Except ε α} {f : α → Except ε β} (hx : ¬ Escapes caught x)
    (hf : ∀ a, ¬ Escapes caught (f a)) : ¬ Escapes caught (x >>= f) := by
  rw [escapes_bind_iff]
  rintro (h | ⟨a, -, h⟩)
  · exact hx h
  · exact hf a h

theorem escapes_raiseIf_iff {c : Prop} [Decidable c] {e : ε} :
    Escapes caught (raiseIf c e) ↔ c ∧ caught e = false := by
  simp [Escapes, and_assoc]

/-- What follows a check whose error is caught escapes when the check passes. -/
theorem escapes_caught_bind_iff {c : Prop} [Decidable c] {e : ε} (h : caught e = true)
    {f : Unit → Except ε α} :
    Escapes caught (raiseIf c e >>= f) ↔ ¬ c ∧ Escapes caught (f ()) := by
  by_cases hc : c
  · rw [raiseIf_pos hc, error_bind, escapes_error_iff, h]
    simp [hc]
  · rw [raiseIf_neg hc, ok_bind]
    simp [hc]

theorem escapes_uncaught_bind_iff {c : Prop} [Decidable c] {e : ε} (h : caught e = false)
    {f : Unit → Except ε α} :
    Escapes caught (raiseIf c e >>= f) ↔ c ∨ Escapes caught (f ()) := by
  by_cases hc : c
  · rw [raiseIf_pos hc, error_bind, escapes_error_iff, h]
    simp [hc]
  · rw [raiseIf_neg hc, ok_bind]
    simp [hc]

theorem escapes_map_iff {x : Except ε α} {f : α → β} :
    Escapes caught (x.map f) ↔ Escapes caught x := by
  cases x <;> simp [Escapes, Except.map]

theorem escapes_forM_iff {l : List α} {f : α → Except ε Unit} :
    Escapes caught (l.forM f) ↔
      ∃ pre a post, l = pre ++ a :: post ∧ (∀ b ∈ pre, f b = .ok ()) ∧ Escapes caught (f a) := by
  simp only [Escapes, forM_eq_error]
  constructor
  · rintro ⟨e, ⟨pre, a, post, hl, hpre, ha⟩, hnot⟩
    exact ⟨pre, a, post, hl, hpre, e, ha, hnot⟩
  · rintro ⟨pre, a, post, hl, hpre, e, ha, hnot⟩
    exact ⟨e, ⟨pre, a, post, hl, hpre, ha⟩, hnot⟩

theorem not_escapes_forM {l : List α} {f : α → Except ε Unit}
    (h : ∀ a ∈ l, ¬ Escapes caught (f a)) : ¬ Escapes caught (l.forM f) := by
  rw [escapes_forM_iff]
  rintro ⟨pre, a, post, rfl, -, ha⟩
  exact h a (by simp) ha

theorem not_escapes_mapM {l : List α} {f : α → Except ε β}
    (h : ∀ a ∈ l, ¬ Escapes caught (f a)) : ¬ Escapes caught (l.mapM f) := by
  rintro ⟨e, he, hnot⟩
  obtain ⟨pre, a, post, rfl, -, ha⟩ := mapM_eq_error.mp he
  exact h a (by simp) ⟨e, ha, hnot⟩

theorem Escapes.anti {more : ε → Bool} (hmore : ∀ e, caught e = true → more e = true)
    {x : Except ε α} (h : Escapes more x) : Escapes caught x := by
  obtain ⟨e, he, hnot⟩ := h
  refine ⟨e, he, ?_⟩
  cases hcaught : caught e with
  | false => rfl
  | true => rw [hmore e hcaught] at hnot; cases hnot

end

/-! ## Loops that go on after an error -/

/-- Check every element; keep the results and the errors that are caught, and stop at the first
other error. -/
def collectValid (caught : ε → Bool) (check : α → Except ε β) :
    List α → Except ε (List β × List ε)
  | [] => .ok ([], [])
  | a :: rest =>
    match check a with
    | .ok b => (collectValid caught check rest).map fun r => (b :: r.1, r.2)
    | .error e =>
      if caught e then (collectValid caught check rest).map fun r => (r.1, e :: r.2) else .error e

section

variable {caught : ε → Bool} {check : α → Except ε β} {l : List α}

theorem collectValid_of_caught (h : ∀ a ∈ l, ¬ Escapes caught (check a)) :
    ∃ errors, collectValid caught check l =
      .ok (l.filterMap fun a => (check a).toOption, errors) := by
  induction l with
  | nil => exact ⟨[], rfl⟩
  | cons a rest ih =>
    obtain ⟨errors, hrest⟩ := ih fun b hb => h b (List.mem_cons_of_mem _ hb)
    cases hcheck : check a with
    | ok b =>
      refine ⟨errors, ?_⟩
      rw [collectValid, hcheck, hrest]
      simp [Except.map, Except.toOption, hcheck]
    | error e =>
      have hcaught : caught e = true := by
        by_contra hnot
        exact h a List.mem_cons_self ⟨e, hcheck, by simpa using hnot⟩
      refine ⟨e :: errors, ?_⟩
      rw [collectValid, hcheck]
      simp only [hcaught, if_true, hrest]
      simp [Except.map, Except.toOption, hcheck]

theorem collectValid_of_escapes {a : α} (ha : a ∈ l) (h : Escapes caught (check a)) :
    ∃ e, collectValid caught check l = .error e := by
  obtain ⟨e, he, hnot⟩ := h
  induction l with
  | nil => cases ha
  | cons b rest ih =>
    rw [collectValid]
    rcases List.mem_cons.mp ha with rfl | hrest
    · rw [he]
      exact ⟨e, by simp [hnot]⟩
    · obtain ⟨e', he'⟩ := ih hrest
      cases hcheck : check b with
      | ok c => exact ⟨e', by simp [he', Except.map]⟩
      | error e'' =>
        cases hcaught : caught e'' with
        | true => exact ⟨e', by simp [hcaught, he', Except.map]⟩
        | false => exact ⟨e'', by simp [hcaught]⟩

end

end Checks
