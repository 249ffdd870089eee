import BenchCluster.Proofs.Journal.Effect

/-! # Runs on a store that may fail

An invocation is one operation or, when a cluster is brought up in one go, four of them, of which
the first that fails is the last. Runs are any number of invocations on the same books.
-/

namespace BenchCluster

variable {ω : Type}

def Request.stages : Request → List Request
  | .all documents implementation force =>
    [.configure documents implementation force, .allocate false, .make, .install]
  | request => [request]

/-- What becomes of a state under operations one after the other, of which the last one answers or
the first that fails. A relation says how a single operation answers and changes the state. -/
inductive Sequenced {σ : Type}
    (R : Request → Except OrchestratorError (Option ClusterDescriptor) → σ → σ → Prop) :
    List Request → Except OrchestratorError (Option ClusterDescriptor) → σ → σ → Prop
  | last {request : Request} {answer : Except OrchestratorError (Option ClusterDescriptor)}
      {x y : σ} (step : R request answer x y) : Sequenced R [request] answer x y
  | broken {request : Request} {rest : List Request} {e : OrchestratorError} {x y : σ}
      (step : R request (.error e) x y) : Sequenced R (request :: rest) (.error e) x y
  | next {request : Request} {rest : List Request} {d : Option ClusterDescriptor}
      {answer : Except OrchestratorError (Option ClusterDescriptor)} {x y z : σ}
      (step : R request (.ok d) x y) (others : Sequenced R rest answer y z) :
      Sequenced R (request :: rest) answer x z

namespace Sequenced

variable {σ τ : Type} {requests : List Request}
  {answer : Except OrchestratorError (Option ClusterDescriptor)}
  {R : Request → Except OrchestratorError (Option ClusterDescriptor) → σ → σ → Prop}

theorem keeps {P : σ → Prop} {x y : σ} (h : Sequenced R requests answer x y) (hx : P x)
    (hstep : ∀ request ∈ requests, ∀ answer x y, P x → R request answer x y → P y) : P y := by
  induction h with
  | last step => exact hstep _ (by simp) _ _ _ hx step
  | broken step => exact hstep _ (by simp) _ _ _ hx step
  | next step _ ih =>
    apply ih
    · exact hstep _ (by simp) _ _ _ hx step
    · intro request hrequest
      exact hstep request (List.mem_cons_of_mem _ hrequest)

/-- Seen through a view, operations do to the state what each of them does, as long as something
that they keep holds. -/
theorem view {S : Request → Except OrchestratorError (Option ClusterDescriptor) → τ → τ → Prop}
    {P : σ → Prop} (f : σ → τ) {x y : σ} (h : Sequenced R requests answer x y) (hx : P x)
    (hkeeps : ∀ request answer x y, P x → R request answer x y → P y)
    (hstep : ∀ request answer x y, P x → R request answer x y → S request answer (f x) (f y)) :
    Sequenced S requests answer (f x) (f y) := by
  induction h with
  | last step => exact .last (hstep _ _ _ _ hx step)
  | broken step => exact .broken (hstep _ _ _ _ hx step)
  | next step _ ih => exact .next (hstep _ _ _ _ hx step) (ih (hkeeps _ _ _ _ hx step))

end Sequenced

theorem Request.stages_of_mem {request stage : Request} (h : stage ∈ request.stages) :
    stage.stages = [stage] := by
  cases request with
  | all documents implementation force =>
    simp only [stages, List.mem_cons, List.not_mem_nil, or_false] at h
    rcases h with rfl | rfl | rfl | rfl <;> rfl
  | _ =>
    rw [List.mem_singleton.1 h]
    rfl

namespace Sequenced

variable {R : Request → Except OrchestratorError (Option ClusterDescriptor) → Books → Books → Prop}

theorem bind {request : Request} {rest : List Request} {x y : Work (Booked ω) ClusterDescriptor}
    (hx : ∀ inv, R request ((x.outcome inv).1.map some) inv.books (x.outcome inv).2.books)
    (hy : ∀ inv, Sequenced R rest ((y.outcome inv).1.map some) inv.books (y.outcome inv).2.books)
    (inv : Invocation (Booked ω)) :
    Sequenced R (request :: rest) (((x >>= fun _ => y).outcome inv).1.map some) inv.books
      ((x >>= fun _ => y).outcome inv).2.books := by
  have hfirst := hx inv
  rcases Work.bind_cases x (fun _ => y) inv with ⟨e, mid, hmid, houtcome⟩ | ⟨d, mid, hmid, houtcome⟩
  · rw [hmid] at hfirst
    rw [houtcome]
    exact .broken hfirst
  · rw [hmid] at hfirst
    rw [houtcome]
    exact .next hfirst (hy mid)

/-- Every request is served by its operations, each of them as a request of its own. -/
theorem of_serve (s : Surroundings (Booked ω)) (cluster : String) (request : Request)
    (h : ∀ stage ∈ request.stages, ∀ inv, R stage ((s.serve cluster stage).outcome inv).1
      inv.books ((s.serve cluster stage).outcome inv).2.books)
    (inv : Invocation (Booked ω)) :
    Sequenced R request.stages ((s.serve cluster request).outcome inv).1 inv.books
      ((s.serve cluster request).outcome inv).2.books := by
  cases request with
  | all documents implementation force =>
    simp only [Request.stages, List.forall_mem_cons, Surroundings.serve, Work.outcome_some] at h
    obtain ⟨hconfigure, hallocate, hmake, hinstall, -⟩ := h
    rw [Surroundings.serve, Work.outcome_some]
    exact bind hconfigure (bind hallocate (bind hmake fun inv => .last (hinstall inv))) inv
  | _ => exact .last (h _ List.mem_cons_self inv)

end Sequenced

theorem Effect.serve (s : Surroundings ω) (cluster : String) {request : Request}
    (h : request.stages = [request]) (inv : Invocation (Booked ω)) :
    Effect cluster inv.books request ((s.frail.serve cluster request).outcome inv).1
      ((s.frail.serve cluster request).outcome inv).2.books := by
  cases request with
  | configure documents implementation force =>
    rw [Surroundings.serve, Work.outcome_some]
    exact configure s cluster documents implementation force inv
  | allocate force =>
    rw [Surroundings.serve, Work.outcome_some]
    exact allocate s cluster force inv
  | make =>
    rw [Surroundings.serve, Work.outcome_some]
    exact make s cluster inv
  | install =>
    rw [Surroundings.serve, Work.outcome_some]
    exact install s cluster inv
  | stop =>
    rw [Surroundings.serve, Work.outcome_some]
    exact stop s cluster inv
  | start =>
    rw [Surroundings.serve, Work.outcome_some]
    exact start s cluster inv
  | clean =>
    rw [Surroundings.serve, Work.outcome_map fun _ => none]
    exact clean s cluster inv
  | all documents implementation force => cases h

/-- What operations on a cluster one after the other answer, and the books they leave. -/
abbrev Course (cluster : String) : List Request →
    Except OrchestratorError (Option ClusterDescriptor) → Books → Books → Prop :=
  Sequenced fun request answer b b' => Effect cluster b request answer b'

/-! ## Runs -/

namespace Turn

/-- What an invocation answers when the store may fail, and the books it leaves. -/
def venture (t : Turn) (b : Books) :
    Except OrchestratorError (Option ClusterDescriptor) × Books :=
  let (answer, after) :=
    (t.surroundings.frail.serve t.cluster t.request).outcome (t.start.withBooks b)
  (answer, after.books)

/-- All that an invocation does is done by its operations. -/
theorem course (t : Turn) (b : Books) :
    Course t.cluster t.request.stages (t.venture b).1 b (t.venture b).2 :=
  .of_serve t.surroundings.frail t.cluster t.request
    (fun _ hstage => Effect.serve _ _ (Request.stages_of_mem hstage)) (t.start.withBooks b)

theorem ventures (t : Turn) (b : Books) : Sequenced (fun request answer x y => ∃ start,
      (t.surroundings.turn start t.cluster request).venture x = (answer, y))
    t.request.stages (t.venture b).1 b (t.venture b).2 :=
  .of_serve t.surroundings.frail t.cluster t.request
    (fun _ _ inv => ⟨{ metrics := inv.metrics, outside := inv.outside.world }, rfl⟩)
    (t.start.withBooks b)

/-- With a store that never fails, an invocation of one of the operations of a request answers and
leaves the books so. -/
def Plays (t : Turn) (request : Request)
    (answer : Except OrchestratorError (Option ClusterDescriptor)) (b b' : Books) : Prop :=
  ∃ start, (t.surroundings.turn start t.cluster request).play b = (answer, b')

theorem plays (t : Turn) (b : Books) :
    Sequenced t.Plays t.request.stages (t.answer b) b (t.books b) :=
  .of_serve t.surroundings.booked t.cluster t.request
    (fun _ _ inv => ⟨{ metrics := inv.metrics, outside := inv.outside.world }, rfl⟩)
    (t.start.withBooks b)

end Turn

namespace Books

/-- The books after invocations with a store that may fail, starting from blank ones. -/
def afterVentures (turns : List Turn) : Books := turns.foldl (fun b t => (t.venture b).2) .blank

theorem afterVentures_concat (turns : List Turn) (t : Turn) :
    afterVentures (turns ++ [t]) = (t.venture (afterVentures turns)).2 := by
  rw [afterVentures, List.foldl_concat, afterVentures]

theorem afterVentures_keeps {P : Books → Prop} (turns : List Turn) (hblank : P blank)
    (hturn : ∀ t ∈ turns, ∀ b, P b → P (t.venture b).2) : P (afterVentures turns) := by
  have hrun : ∀ turns' ⊆ turns, ∀ b : Books, P b →
      P (turns'.foldl (fun b t => (t.venture b).2) b) := by
    intro turns' hsub
    induction turns' with
    | nil => exact fun b hb => hb
    | cons t rest ih =>
      intro b hb
      exact ih (fun u hu => hsub (List.mem_cons_of_mem _ hu)) _
        (hturn t (hsub List.mem_cons_self) b hb)
  exact hrun turns (List.Subset.refl _) blank hblank

/-- What holds of blank books and is kept by operations holds after every run. -/
theorem afterVentures_induction {P : Books → Prop} (turns : List Turn) (hblank : P blank)
    (hstep : ∀ t ∈ turns, ∀ request ∈ t.request.stages, ∀ answer b b', P b →
      Effect t.cluster b request answer b' → P b') : P (afterVentures turns) :=
  afterVentures_keeps turns hblank fun t ht b hb => (t.course b).keeps hb (hstep t ht)

end Books

theorem Books.Loaded.extends_put {b : Books} {cluster : String} {operation : Operation}
    {d after : ClusterDescriptor} (h : b.Loaded cluster operation d)
    (hname : ∀ d, b.find? cluster = some d → d.clusterName = cluster)
    (hsame : after.clusterName = d.clusterName) (entries : List JournalEntry) (late : Bool) :
    b.Extends cluster ((b.enter entries).put late after) :=
  .put entries late (hsame.trans (hname d h.stored)) h.valid

namespace Effect

variable {cluster : String} {request : Request} {b b' : Books}
  {answer : Except OrchestratorError (Option ClusterDescriptor)}

/-- An operation adds to the books and writes to the descriptor of its cluster at most, if that
bears the name of the cluster. -/
theorem extendsBooks (h : Effect cluster b request answer b')
    (hname : ∀ d, b.find? cluster = some d → d.clusterName = cluster) : b.Extends cluster b' := by
  cases h with
  | refused refusal unaccepted => simpa using Books.Extends.enter (b := b) []
  | failed mishap nothing => exact .enter _
  | configured valid inert accepted planned expanded => exact .put _ _ rfl valid
  | lost loaded a mishap => exact .enter _
  | allocated loaded a => exact loaded.extends_put hname (by rfl) _ _
  | made loaded inert => exact .enter _
  | installed loaded inert => exact loaded.extends_put hname (by rfl) _ _
  | stopped loaded inert => exact loaded.extends_put hname (by rfl) _ _
  | woken loaded x failures => exact loaded.extends_put hname (by rfl) _ _
  | started loaded x inert => exact loaded.extends_put hname (by rfl) _ _
  | cleaned loaded roles c =>
    rw [Cleaning.settle]
    split
    · exact .drop _ _
    · exact loaded.extends_put hname (by rfl) _ _

theorem named (h : Effect cluster b request answer b') (hb : b.Named) : b'.Named :=
  (h.extendsBooks fun d hd => (hb cluster d hd).1).named hb

end Effect

theorem Books.named_afterVentures (turns : List Turn) : (afterVentures turns).Named :=
  afterVentures_induction turns named_blank fun _ _ _ _ _ _ _ hb h => h.named hb

/-! ## A store that does not fail -/

namespace Sample

def steady : Surroundings Nat :=
  { surroundings with
    store :=
      { contains := fun _ => return .ok false
        load := fun _ => return .ok default
        save := fun _ => return .ok ()
        delete := fun _ => return .ok () } }

end Sample

end BenchCluster
