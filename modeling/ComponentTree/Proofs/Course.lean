import ComponentTree.Conversion.Step
import ComponentTree.Proofs.Value.Sharing
import Mathlib.Data.List.Forall2

/-!
# Laws of courses

A course is a function of the writes before it, and sequencing two courses feeds the writes of the
first into the second. The laws that every later proof rests on:

* `Course` is a lawful monad, so a conversion may be cut into parts at any point.
* `Course.Succeeds` and `Course.Fails` say what a course comes to whatever was written before,
  `Course.Gives` and `Course.Stops` what it comes to with nothing written before. All of them pass
  through sequencing and through `Course.forEach`.
* `Course.forget` leaves the nodes out of the steps. Courses over different trees can then be
  compared, and forgetting commutes with sequencing.
-/

namespace ComponentTree

attribute [ext] Run

namespace Course

variable {ν α β γ : Type}

/-! ## Running a course -/

/-- What a course comes to after earlier writes. -/
def run (c : Course ν α) (earlier : List Write) : Run ν α := c earlier

@[ext] theorem ext {c d : Course ν α} (h : ∀ earlier, c.run earlier = d.run earlier) : c = d :=
  funext h

@[simp] theorem run_done (a : α) (earlier : List Write) :
    (done a : Course ν α).run earlier = ⟨.ok a, [], []⟩ := rfl

@[simp] theorem run_pure (a : α) (earlier : List Write) :
    (pure a : Course ν α).run earlier = ⟨.ok a, [], []⟩ := rfl

@[simp] theorem run_ofExcept (outcome : Except Fault α) (earlier : List Write) :
    (ofExcept outcome : Course ν α).run earlier = ⟨outcome, [], []⟩ := rfl

@[simp] theorem run_step (s : Step ν) (outcome : Except Fault α) (earlier : List Write) :
    (step s outcome).run earlier = ⟨outcome, [s], []⟩ := rfl

@[simp] theorem run_current (value : Value) (earlier : List Write) :
    (current value : Course ν Value).run earlier = ⟨.ok (value.afterAll earlier), [], []⟩ := rfl

@[simp] theorem current_ofString? (text : Option String) :
    (current (.ofString? text) : Course ν Value) = pure (.ofString? text) := by
  ext1 earlier
  simp

@[simp] theorem ofExcept_ok (a : α) : (ofExcept (.ok a) : Course ν α) = pure a := rfl

/-- A course that succeeds goes on with what it gave and with its own writes added. -/
theorem run_bind_ok {c : Course ν α} {f : α → Course ν β} {earlier : List Write} {a : α}
    (h : (c.run earlier).outcome = .ok a) :
    (c >>= f).run earlier =
      ⟨((f a).run (earlier ++ (c.run earlier).writes)).outcome,
        (c.run earlier).steps ++ ((f a).run (earlier ++ (c.run earlier).writes)).steps,
        (c.run earlier).writes ++ ((f a).run (earlier ++ (c.run earlier).writes)).writes⟩ := by
  show andThen c f earlier = _
  unfold andThen
  simp only [run] at h ⊢
  simp only [h]

theorem run_bind_error {c : Course ν α} {f : α → Course ν β} {earlier : List Write} {fault : Fault}
    (h : (c.run earlier).outcome = .error fault) :
    (c >>= f).run earlier = ⟨.error fault, (c.run earlier).steps, (c.run earlier).writes⟩ := by
  show andThen c f earlier = _
  unfold andThen
  simp only [run] at h ⊢
  simp only [h]

theorem outcome_bind_ok {c : Course ν α} {f : α → Course ν β} {earlier : List Write} {b : β}
    (h : ((c >>= f).run earlier).outcome = .ok b) :
    ∃ a, (c.run earlier).outcome = .ok a ∧
      ((f a).run (earlier ++ (c.run earlier).writes)).outcome = .ok b := by
  cases hc : (c.run earlier).outcome with
  | error fault =>
    rw [run_bind_error hc] at h
    cases h
  | ok a =>
    rw [run_bind_ok hc] at h
    exact ⟨a, rfl, h⟩

/-! ## The monad laws -/

theorem pure_bind (a : α) (f : α → Course ν β) : (pure a : Course ν α) >>= f = f a := by
  ext1 earlier
  have h : ((pure a : Course ν α).run earlier).outcome = .ok a := rfl
  rw [run_bind_ok h, run_pure]
  simp

theorem bind_pure (c : Course ν α) : c >>= pure = c := by
  ext1 earlier
  cases h : (c.run earlier).outcome with
  | error fault => rw [run_bind_error h, ← h]
  | ok a => rw [run_bind_ok h, run_pure, ← h]; simp

theorem bind_assoc (c : Course ν α) (f : α → Course ν β) (g : β → Course ν γ) :
    (c >>= f) >>= g = c >>= fun a => f a >>= g := by
  ext1 earlier
  cases hc : (c.run earlier).outcome with
  | error fault =>
    have hcf : ((c >>= f).run earlier).outcome = .error fault := by rw [run_bind_error hc]
    rw [run_bind_error hcf, run_bind_error hc, run_bind_error hc]
  | ok a =>
    -- `g` runs after the writes of both, which bind the same way on either side
    cases hf : ((f a).run (earlier ++ (c.run earlier).writes)).outcome with
    | error fault =>
      have hcf : ((c >>= f).run earlier).outcome = .error fault := by rw [run_bind_ok hc, hf]
      rw [run_bind_error hcf, run_bind_ok hc, run_bind_ok hc, run_bind_error hf]
    | ok b =>
      have hcf : ((c >>= f).run earlier).outcome = .ok b := by rw [run_bind_ok hc, hf]
      rw [run_bind_ok hcf, run_bind_ok hc, run_bind_ok hc, run_bind_ok hf]
      simp only [List.append_assoc]

instance : LawfulMonad (Course ν) := LawfulMonad.mk' (Course ν) bind_pure pure_bind bind_assoc

/-! ## What a course comes to -/

/-- The course gives something, whatever was written before. -/
def Succeeds (c : Course ν α) : Prop := ∀ earlier, ∃ a, (c.run earlier).outcome = .ok a

/-- The course ends with a fault, whatever was written before. -/
def Fails (c : Course ν α) (fault : Fault) : Prop :=
  ∀ earlier, (c.run earlier).outcome = .error fault

theorem Succeeds.bind {c : Course ν α} {f : α → Course ν β} (hc : c.Succeeds)
    (hf : ∀ a, (f a).Succeeds) : (c >>= f).Succeeds := by
  intro earlier
  obtain ⟨a, hok⟩ := hc earlier
  rw [run_bind_ok hok]
  exact hf a _

/-- What comes next may rely on what is known of the value it gets. -/
theorem Succeeds.bind_of {c : Course ν α} {f : α → Course ν β} {p : α → Prop}
    (hc : ∀ earlier, ∃ a, (c.run earlier).outcome = .ok a ∧ p a)
    (hf : ∀ a, p a → (f a).Succeeds) : (c >>= f).Succeeds := by
  intro earlier
  obtain ⟨a, hok, ha⟩ := hc earlier
  rw [run_bind_ok hok]
  exact hf a ha _

theorem Succeeds.bind_of_ok {c : Course ν α} {f : α → Course ν β} (hc : c.Succeeds)
    (hf : ∀ a earlier, (c.run earlier).outcome = .ok a → (f a).Succeeds) : (c >>= f).Succeeds := by
  refine Succeeds.bind_of (p := fun a => ∃ earlier, (c.run earlier).outcome = .ok a) ?_ ?_
  · intro earlier
    obtain ⟨a, hok⟩ := hc earlier
    exact ⟨a, hok, earlier, hok⟩
  · rintro a ⟨earlier, hok⟩
    exact hf a earlier hok

theorem Fails.bind {c : Course ν α} {fault : Fault} (hc : c.Fails fault) (f : α → Course ν β) :
    (c >>= f).Fails fault := by
  intro earlier
  rw [run_bind_error (hc earlier)]

theorem Succeeds.bind_fails {c : Course ν α} {f : α → Course ν β} {fault : Fault}
    (hc : c.Succeeds) (hf : ∀ a, (f a).Fails fault) : (c >>= f).Fails fault := by
  intro earlier
  obtain ⟨a, hok⟩ := hc earlier
  rw [run_bind_ok hok]
  exact hf a _

theorem succeeds_pure (a : α) : (pure a : Course ν α).Succeeds := fun _ => ⟨a, rfl⟩

theorem Fails.not_succeeds {c : Course ν α} {fault : Fault} (hc : c.Fails fault) :
    ¬ c.Succeeds := by
  intro h
  obtain ⟨a, hok⟩ := h []
  rw [hc []] at hok
  cases hok

/-! ## Courses before which nothing was written -/

/-- With nothing written before, the course gives `a` and writes nothing. -/
def Gives (c : Course ν α) (a : α) : Prop :=
  (c.run []).outcome = .ok a ∧ (c.run []).writes = []

/-- With nothing written before, the course ends with a fault. -/
def Stops (c : Course ν α) (fault : Fault) : Prop := (c.run []).outcome = .error fault

theorem gives_pure (a : α) : (pure a : Course ν α).Gives a := ⟨rfl, rfl⟩

theorem gives_step (s : Step ν) (a : α) : (step s (.ok a) : Course ν α).Gives a := ⟨rfl, rfl⟩

theorem Gives.bind {c : Course ν α} {f : α → Course ν β} {a : α} {b : β} (hc : c.Gives a)
    (hf : (f a).Gives b) : (c >>= f).Gives b := by
  rw [Gives, run_bind_ok hc.1, hc.2]
  exact hf

theorem Gives.bind_stops {c : Course ν α} {f : α → Course ν β} {a : α} {fault : Fault}
    (hc : c.Gives a) (hf : (f a).Stops fault) : (c >>= f).Stops fault := by
  rw [Stops, run_bind_ok hc.1, hc.2]
  exact hf

theorem Stops.bind {c : Course ν α} {fault : Fault} (hc : c.Stops fault) (f : α → Course ν β) :
    (c >>= f).Stops fault := by
  rw [Stops, run_bind_error hc]

theorem Gives.not_stops {c : Course ν α} {a : α} {fault : Fault} (h : c.Gives a) :
    ¬ c.Stops fault := by
  intro hs
  rw [Stops, h.1] at hs
  cases hs

theorem Gives.settled {c : Course ν Value} {v : Value} (h : c.Gives v) :
    (c.run []).settled = .ok v := by
  rw [Run.settled, h.1, h.2]
  rfl

theorem Stops.settled {c : Course ν Value} {fault : Fault} (h : c.Stops fault) :
    (c.run []).settled = .error fault := by
  rw [Run.settled, h]
  rfl

/-! ## One course for each item -/

@[simp] theorem forEach_nil (f : α → Course ν β) : forEach f [] = pure [] := rfl

theorem forEach_cons (f : α → Course ν β) (a : α) (l : List α) :
    forEach f (a :: l) = f a >>= fun b => forEach f l >>= fun bs => pure (b :: bs) := rfl

theorem forEach_congr {f g : α → Course ν β} :
    ∀ {l : List α}, (∀ a ∈ l, f a = g a) → forEach f l = forEach g l
  | [], _ => rfl
  | a :: l, h => by
    rw [forEach_cons, forEach_cons, h a (by simp), forEach_congr fun b hb => h b (by simp [hb])]

theorem forEach_append_singleton (f : α → Course ν β) (l : List α) (a : α) :
    forEach f (l ++ [a]) = forEach f l >>= fun bs => f a >>= fun b => pure (bs ++ [b]) := by
  induction l with
  | nil => simp only [List.nil_append, forEach_cons, forEach_nil, pure_bind]
  | cons b l ih => simp only [List.cons_append, forEach_cons, ih, bind_assoc, pure_bind]

/-- Whatever the courses for the items gave, the course for one of them gave. -/
theorem exists_of_mem_forEach {f : α → Course ν β} {l : List α} {bs : List β} {b : β}
    {earlier : List Write} (h : ((forEach f l).run earlier).outcome = .ok bs) (hb : b ∈ bs) :
    ∃ a ∈ l, ∃ earlier', ((f a).run earlier').outcome = .ok b := by
  induction l generalizing earlier bs with
  | nil =>
    cases h
    cases hb
  | cons a l ih =>
    rw [forEach_cons] at h
    obtain ⟨b', hb', h⟩ := outcome_bind_ok h
    obtain ⟨bs', hbs', h⟩ := outcome_bind_ok h
    cases h
    rcases List.mem_cons.mp hb with rfl | hb
    · exact ⟨a, List.mem_cons_self, earlier, hb'⟩
    · obtain ⟨a', ha', hgave⟩ := ih hbs' hb
      exact ⟨a', List.mem_cons_of_mem _ ha', hgave⟩

theorem forEach_succeeds {f : α → Course ν β} :
    ∀ {l : List α}, (∀ a ∈ l, (f a).Succeeds) → (forEach f l).Succeeds
  | [], _ => succeeds_pure []
  | a :: l, h =>
    (h a (by simp)).bind fun _ =>
      (forEach_succeeds fun b hb => h b (by simp [hb])).bind fun _ => succeeds_pure _

/-- If all items but those that end with one fault succeed, and there is one that does not, then the
whole ends with that fault. -/
theorem forEach_fails {f : α → Course ν β} {fault : Fault} :
    ∀ {l : List α}, (∀ a ∈ l, (f a).Succeeds ∨ (f a).Fails fault) →
      (∃ a ∈ l, (f a).Fails fault) → (forEach f l).Fails fault
  | [], _, ⟨_, ha, _⟩ => by cases ha
  | a :: l, h, hex => by
    rw [forEach_cons]
    rcases h a (by simp) with hs | hf
    · refine hs.bind_fails fun _ => Fails.bind ?_ _
      refine forEach_fails (fun b hb => h b (by simp [hb])) ?_
      obtain ⟨b, hb, hbf⟩ := hex
      -- the first course succeeds, so the one that fails is further on
      rcases List.mem_cons.mp hb with rfl | hb
      · exact absurd hs hbf.not_succeeds
      · exact ⟨b, hb, hbf⟩
    · exact hf.bind _

theorem forEach_gives_of_forall₂ {f : α → Course ν β} {l : List α} {bs : List β}
    (h : List.Forall₂ (fun a b => (f a).Gives b) l bs) : (forEach f l).Gives bs := by
  induction h with
  | nil => exact gives_pure []
  | cons hab _ ih => exact hab.bind (ih.bind (gives_pure _))

theorem forEach_gives {f : α → Course ν β} {g : α → β} {l : List α}
    (h : ∀ a ∈ l, (f a).Gives (g a)) : (forEach f l).Gives (l.map g) := by
  apply forEach_gives_of_forall₂
  rw [List.forall₂_map_right_iff, List.forall₂_same]
  exact h

/-- If every item gives something or ends with one fault, then the whole ends with that fault as soon
as one item does. -/
theorem forEach_stops {f : α → Course ν β} {fault : Fault} :
    ∀ {l : List α}, (∀ a ∈ l, (∃ b, (f a).Gives b) ∨ (f a).Stops fault) →
      (∃ a ∈ l, (f a).Stops fault) → (forEach f l).Stops fault
  | [], _, ⟨_, ha, _⟩ => by cases ha
  | a :: l, h, hex => by
    rw [forEach_cons]
    rcases h a (by simp) with ⟨b, hb⟩ | hstops
    · refine hb.bind_stops (Stops.bind (forEach_stops (fun c hc => h c (by simp [hc])) ?_) _)
      obtain ⟨c, hc, hcs⟩ := hex
      rcases List.mem_cons.mp hc with rfl | hc
      · exact absurd hcs hb.not_stops
      · exact ⟨c, hc, hcs⟩
    · exact hstops.bind _

end Course

/-! ## Forgetting the nodes -/

def PropsContext.forget {ν : Type} (context : PropsContext ν) : PropsContext Unit :=
  ⟨context.tag, context.component, ()⟩

def PropsCall.forget {ν : Type} (call : PropsCall ν) : PropsCall Unit :=
  ⟨call.attributes, call.slots, call.context.forget⟩

/-- A step without the nodes it is taken for. -/
def Step.forget {ν : Type} : Step ν → Step Unit
  | .enter _ => .enter ()
  | .lookup _ tag => .lookup () tag
  | .route _ _ slot => .route () () slot
  | .props call => .props call.forget
  | .build _ type entries children => .build () type entries children

/-- A run without the nodes of its steps. -/
def Run.forget {ν α : Type} (run : Run ν α) : Run Unit α :=
  ⟨run.outcome, run.steps.map Step.forget, run.writes⟩

namespace Course

variable {ν μ α β γ δ : Type}

/-- A course without the nodes of its steps. -/
def forget (c : Course ν α) : Course Unit α := fun earlier => (c.run earlier).forget

theorem run_forget (c : Course ν α) (earlier : List Write) :
    c.forget.run earlier = (c.run earlier).forget := rfl

@[simp] theorem forget_pure (a : α) : (pure a : Course ν α).forget = pure a := rfl

@[simp] theorem forget_ofExcept (outcome : Except Fault α) :
    (ofExcept outcome : Course ν α).forget = ofExcept outcome := rfl

@[simp] theorem forget_step (s : Step ν) (outcome : Except Fault α) :
    (step s outcome).forget = step s.forget outcome := rfl

@[simp] theorem forget_current (value : Value) :
    (current value : Course ν Value).forget = current value := rfl

@[simp] theorem forget_bind (c : Course ν α) (f : α → Course ν β) :
    (c >>= f).forget = c.forget >>= fun a => (f a).forget := by
  ext1 earlier
  cases h : (c.run earlier).outcome with
  | error fault =>
    have h' : (c.forget.run earlier).outcome = .error fault := h
    rw [run_bind_error h', run_forget, run_bind_error h]
    rfl
  | ok a =>
    have h' : (c.forget.run earlier).outcome = .ok a := h
    rw [run_bind_ok h', run_forget, run_bind_ok h]
    simp [Run.forget, run_forget]

theorem forget_forEach {f : α → Course ν β} {g : γ → Course μ β} {l : List α} {l' : List γ}
    (h : List.Forall₂ (fun a c => (f a).forget = (g c).forget) l l') :
    (forEach f l).forget = (forEach g l').forget := by
  induction h with
  | nil => rfl
  | cons hac _ ih => simp only [forEach_cons, forget_bind, forget_pure, hac, ih]

end Course

end ComponentTree
