import TuneX.Control.PathRuns
import TuneX.Control.Reservations

namespace TuneX.Control

open Framework

theorem expandPath_integrity {spec : Spec} {config : TemplateConfig} (hs : spec.valid)
    (hc : config.valid) : expandPath spec config≠.error .integrityFailure := by
  intro h
  simp only [expandPath,bind_error,reject_error,reject_ok,exists_unit,not_or,not_not] at h
  rcases h with ⟨-,h⟩ | ⟨⟨hhead,-⟩,⟨hinvalid,-⟩ | ⟨-,h⟩⟩
  · cases h
  · simp only [TemplateConfig.valid,bool_ok] at hc
    obtain ⟨⟨⟨⟨-,hlength,-,hnodup⟩,-⟩,-⟩,-⟩ := hc
    obtain ⟨tail,hnodes⟩ := List.head?_eq_some_iff.mp hhead.symm
    rw [hnodes] at hlength hnodup
    have htail : tail≠[] := by
      rintro rfl
      simp at hlength
    obtain ⟨hnotin,htailnodup⟩ := List.nodup_cons.mp hnodup
    simp only [Spec.valid,bool_ok] at hs
    have hvalid : Spec.valid { spec with via := config.nodes.tail, transport := some config.transport } := by
      simp only [Spec.valid,bool_ok,hnodes,List.tail_cons]
      refine ⟨⟨hs.1.1,htailnodup,hnotin⟩,?_⟩
      cases tail with
      | nil => exact absurd rfl htail
      | cons _ _ => rfl
    rw [hvalid] at hinvalid
    cases hinvalid
  · cases h

namespace PathTables

section
variable {τ : Type} {digests : PathDigests τ} {b : PathTables τ}

theorem Templates.template_integrity (h : Templates digests b) (scope : ScopeId)
    (s : PathSelection) (active : Bool) :
    b.template digests scope s active≠.error .integrityFailure := by
  intro he
  unfold template at he
  split at he
  · cases he
  · rename_i head hhead
    rw [h.heads _ _ hhead] at he
    simp only [bind_error,reject_error,reject_ok,exists_unit] at he
    rcases he with he | ⟨-,⟨-,he⟩ | ⟨-,he⟩⟩
    · cases he
    · cases he
    · split at he
      · cases he
      · rename_i r hr
        rw [(h.revisions _ _ _ _ hr).1] at he
        simp only [bind_error,reject_error,reject_ok,exists_unit] at he
        rcases he with he | ⟨-,⟨-,he⟩ | ⟨-,he⟩⟩ <;> cases he

theorem Templates.config_valid (h : Templates digests b) {scope : ScopeId} {id number : Nat}
    {r : TemplateRevision} (hr : b.templates.lookup (scope,id,number)=some r) :
    r.config.valid := by
  have hvalid := (h.revisions _ _ _ _ hr).1
  simp only [validateTemplateRevision,reject_ok,not_or,Bool.not_eq_false] at hvalid
  exact hvalid.1

end

/-- The path that a configuration gives. -/
def Gives (c : TemplateConfig) (t : Topology) : Prop :=
  some t.ingressNode=c.nodes.head? ∧ t.protocols.length=c.protocols.length ∧
    (∀p∈t.protocols, p∈c.protocols) ∧ t.path=c.nodes.tail ∧ t.transport=some c.transport

theorem expandPath_gives {spec e : Spec} {config : TemplateConfig}
    (h : expandPath spec config=.ok e) : Gives config e.topology := by
  have he := (expandPath_ok h).1
  simp only [expandPath,do_ok,not_or,not_not,not_exists,not_and] at h
  obtain ⟨⟨hhead,hlength,hmem⟩,-⟩ := h
  rw [he]
  exact ⟨hhead,hlength,hmem,rfl,rfl⟩

/-- The records of a Forward agree with each other, so that nothing which reads them later finds a
failure of integrity. Only the owner of the profile can still answer otherwise than it did. -/
structure Consistent {τ : Type} [DecidableEq τ] (digests : PathDigests τ) (b : PathTables τ)
    (f : Forward) : Prop where
  current : b.checkCurrent digests f=.ok ()
  history : ∀x∈b.bindings f.id,
    b.checked digests f x (decide (b.current.lookup f.id=some x.sequence))=.ok ()
  template : ∀selection active,
    b.template digests f.scopeId selection active≠.error .integrityFailure
  preserve : ∀next, ∃c, b.preserve digests f next=.ok c
  resolve : ∀answer selection, b.resolve digests answer f selection=.error .integrityFailure→
    ∃record, b.templates.lookup (f.scopeId,selection.templateId,selection.revision)=some record ∧
      answer record.config≠.ok record.profileDigest
  accept : ∀answer selection spec now actor revision, parsePathSelection selection→
    b.resolve digests answer f selection=.ok spec→f.revision ≤ revision→isCounter revision→
    now≤latestTime→
    b.accept digests now actor ⟨f.id,f.scopeId,revision,spec⟩ selection≠.error .integrityFailure

end PathTables

namespace Provenance

variable {τ : Type} [DecidableEq τ] {digests : PathDigests τ} {w : PathWorld τ} {id : ForwardId}
  {i : Intent}

theorem checked (k : Provenance digests w) (hi : w.store.state.intent id=some i)
    {x : PathBinding τ} (hx : x∈w.store.bindings.bindings id) :
    w.store.bindings.checked digests ⟨id,i.scopeId,i.revision,i.spec⟩ x
      (decide (w.store.bindings.current.lookup id=some x.sequence))=.ok () := by
  obtain ⟨hrec,hle⟩ := k.recorded id i hi x hx
  refine PathTables.Recorded.checked k.templates hrec (k.numbered.sequence hx) hle ?_
  intro hcurrent
  obtain ⟨y,hy⟩ := k.numbered.current_some (of_decide_eq_true hcurrent)
  obtain ⟨hmem,hlookup⟩ := PathTables.currentBinding_mem hy
  have hseq : y.sequence=x.sequence := by
    rw [of_decide_eq_true hcurrent] at hlookup
    exact (Option.some.inj hlookup).symm
  have htop := (k.latest id y hy).2
  rw [State.topology,hi,k.numbered.same hmem hx hseq] at htop
  exact congrArg digests.topology (Option.some.inj htop)

theorem checkCurrent (k : Provenance digests w) (hi : w.store.state.intent id=some i) :
    w.store.bindings.checkCurrent digests ⟨id,i.scopeId,i.revision,i.spec⟩=.ok () := by
  unfold PathTables.checkCurrent
  split
  · rfl
  · rename_i x hx
    obtain ⟨hmem,hlookup⟩ := PathTables.currentBinding_mem hx
    have h := k.checked hi hmem
    rw [decide_eq_true hlookup] at h
    exact h

theorem preserve_total (k : Provenance digests w) (hi : w.store.state.intent id=some i)
    (next : Forward) : ∃c,
    w.store.bindings.preserve digests ⟨id,i.scopeId,i.revision,i.spec⟩ next=.ok c := by
  have h := k.checkCurrent hi
  unfold PathTables.checkCurrent at h
  unfold PathTables.preserve
  split at h
  · exact ⟨_,rfl⟩
  · rw [h]
    split
    · exact ⟨_,rfl⟩
    · exact ⟨_,rfl⟩

variable {selection : PathSelection} {answer : TemplateConfig→Except Error Nat} {actor : ActorId}

theorem resolve_integrity (k : Provenance digests w) (hi : w.store.state.intent id=some i)
    (h : w.store.bindings.resolve digests answer ⟨id,i.scopeId,i.revision,i.spec⟩ selection=
      .error .integrityFailure) : ∃record, w.store.bindings.templates.lookup
        (i.scopeId,selection.templateId,selection.revision)=some record ∧
      answer record.config≠.ok record.profileDigest := by
  simp only [PathTables.resolve,bind_error,k.checkCurrent hi,exists_unit] at h
  rcases h with h | ⟨-,h | ⟨record,hrecord,h⟩⟩
  · cases h
  · exact absurd h (k.templates.template_integrity _ _ _)
  · have hfound := (PathTables.template_found hrecord).1
    refine ⟨record,hfound,?_⟩
    intro hanswer
    rw [hanswer] at h
    rcases h with h | ⟨digest,hdigest,h | ⟨-,h⟩⟩
    · cases h
    · cases hdigest
      exact absurd rfl ((reject_error _ _ _).mp h).1
    · obtain ⟨row,hrow,rfl⟩ := State.intent_some.mp hi
      exact expandPath_integrity (k.specs _ _ hrow) (k.templates.config_valid hfound) h

theorem appended_checked (k : Provenance digests w) {f : Forward} {now : Nat} {t : PathTables τ}
    {record : PathBinding τ} (hparse : PathTables.parsePathSelection selection)
    (htemplate : ∃r, w.store.bindings.templates.lookup
        (f.scopeId,selection.templateId,selection.revision)=some r ∧
      r.configDigest=selection.configDigest ∧ expandPath f.spec r.config=.ok f.spec)
    (hvalid : f.spec.valid) (hcounter : isCounter f.revision) (hnow : now≤latestTime)
    (h : w.store.bindings.append digests f.id selection f.revision f.spec actor now=
      .ok (t,record)) : t.checked digests f record true=.ok () := by
  simp only [PathTables.append,do_ok,Prod.mk.injEq] at h
  obtain ⟨hroom,rfl,rfl⟩ := h
  have hmax : 64 ≤ maxCounter := by decide
  have hseq : isCounter (((w.store.bindings.bindings f.id).map PathBinding.sequence).foldl max 0+1)
      ∧ ((w.store.bindings.bindings f.id).map PathBinding.sequence).foldl max 0+1≤64 := by
    simp only [isCounter,bool_ok]
    omega
  exact PathTables.Recorded.checked ⟨k.templates.heads,k.templates.revisions⟩
    ⟨hparse,hcounter,hnow,hvalid,rfl,htemplate⟩ hseq (le_rfl) (fun _ => rfl)

theorem accept_integrity (k : Provenance digests w) (hi : w.store.state.intent id=some i)
    {spec : Spec} {now revision : Nat} (hparse : PathTables.parsePathSelection selection)
    (hspec : w.store.bindings.resolve digests answer ⟨id,i.scopeId,i.revision,i.spec⟩ selection=
      .ok spec) (hle : i.revision ≤ revision) (hcounter : isCounter revision)
    (hnow : now≤latestTime) :
    w.store.bindings.accept digests now actor ⟨id,i.scopeId,revision,spec⟩ selection≠
      .error .integrityFailure := by
  intro h
  unfold PathTables.accept at h
  split at h
  · rename_i old hold
    simp only [PathTables.reuses,Option.filter_eq_some_iff,decide_eq_true_eq] at hold
    obtain ⟨hcurrent,-,htop⟩ := hold
    have hmem := (PathTables.currentBinding_mem hcurrent).1
    obtain ⟨hrec,hrevision⟩ := k.recorded id i hi old hmem
    have hok : w.store.bindings.checked digests ⟨id,i.scopeId,revision,spec⟩ old true=.ok () :=
      PathTables.Recorded.checked k.templates hrec (k.numbered.sequence hmem)
        (hrevision.trans hle) (fun _ => htop)
    rw [hok] at h
    cases h
  · simp only [PathTables.resolve,do_ok] at hspec
    obtain ⟨-,r,hr,-,-,-,hexpand⟩ := hspec
    obtain ⟨hfound,hdigest⟩ := PathTables.template_found hr
    obtain ⟨-,hvalid,hagain⟩ := expandPath_ok hexpand
    simp only [bind_error,reject_error,reject_ok,exists_unit] at h
    rcases h with ⟨hlate,-⟩ | ⟨-,h | ⟨⟨t,record⟩,happend,h⟩⟩
    · omega
    · simp only [PathTables.append,bind_error,reject_error,exists_unit] at h
      rcases h with ⟨-,h⟩ | ⟨-,h⟩ <;> cases h
    · rw [k.appended_checked hparse ⟨r,hfound,hdigest,hagain⟩ hvalid hcounter hnow happend] at h
      rcases h with h | ⟨-,h⟩ <;> cases h

theorem consistent (k : Provenance digests w) (hi : w.store.state.intent id=some i) :
    PathTables.Consistent digests w.store.bindings ⟨id,i.scopeId,i.revision,i.spec⟩ where
  current := k.checkCurrent hi
  history := fun _ hx => k.checked hi hx
  template := k.templates.template_integrity _
  preserve := k.preserve_total hi
  resolve := fun _ _ h => k.resolve_integrity hi h
  accept := fun _ _ _ _ _ _ hparse hspec hle hcounter hnow =>
    k.accept_integrity hi hparse hspec hle hcounter hnow

omit [DecidableEq τ] in
theorem bound_iff (k : Provenance digests w) :
    (w.store.bindings.currentBinding id).isSome ↔ ∃selection topology i record,
      w.applied id=some (selection,topology) ∧ w.moved id=false ∧
      w.store.state.intent id=some i ∧ i.spec.topology=topology ∧
      w.store.bindings.templates.lookup
        (i.scopeId,selection.templateId,selection.revision)=some record ∧
      record.configDigest=selection.configDigest ∧ PathTables.Gives record.config topology := by
  constructor
  · intro h
    obtain ⟨x,hx⟩ := Option.isSome_iff_exists.mp h
    obtain ⟨hmem,hlookup⟩ := PathTables.currentBinding_mem hx
    obtain ⟨happlied,htop⟩ := k.latest id x hx
    obtain ⟨i,hi⟩ := k.known hmem
    obtain ⟨record,hrecord,hdigest,hexpand⟩ := (k.recorded id i hi x hmem).1.template
    have hmoved := ((k.current id).mp (Option.isSome_of_eq_some hlookup)).2
    rw [State.topology,hi] at htop
    exact ⟨_,_,i,record,happlied,hmoved,hi,Option.some.inj htop,hrecord,hdigest,
      PathTables.expandPath_gives hexpand⟩
  · rintro ⟨selection,topology,-,-,happlied,hmoved,-⟩
    have hlookup := (k.current id).mpr ⟨Option.isSome_of_eq_some happlied,hmoved⟩
    obtain ⟨s,hs⟩ := Option.isSome_iff_exists.mp hlookup
    obtain ⟨x,hx⟩ := k.numbered.current_some hs
    exact Option.isSome_of_eq_some hx

end Provenance

section
variable {τ : Type} [DecidableEq τ] {digests : PathDigests τ}
  {validate : State→ActorId→ScopeId→TemplateConfig→Except Error Nat}

/-- No Forward and no template yet. -/
def PathWorld.start (world : World) (member : ActorId→ScopeId→Bool) : PathWorld τ :=
  ⟨⟨State.initial world,member,∅,PathTables.empty⟩,fun _ => none,fun _ => false⟩

omit [DecidableEq τ] in
theorem Provenance.start (digests : PathDigests τ) (world : World)
    (member : ActorId→ScopeId→Bool) : Provenance digests (PathWorld.start world member) := by
  refine ⟨nofun,⟨nofun,nofun⟩,⟨fun _ => rfl,fun _ => Nat.zero_le _,nofun⟩,fun _ _ => rfl,nofun,?_,
    nofun⟩
  exact fun _ => ⟨nofun,nofun⟩

variable {w w' : PathWorld τ}

theorem Provenance.reached (hinj : Function.Injective digests.topology) (k : Provenance digests w)
    (h : Relation.ReflTransGen (PathStep digests validate) w w') : Provenance digests w' := by
  induction h with
  | refl => exact k
  | tail _ hstep ih => exact ih.step hinj hstep

theorem PathStep.run_prefixed (h : Relation.ReflTransGen (PathStep digests validate) w w')
    (id : ForwardId) : w.store.bindings.bindings id<+:w'.store.bindings.bindings id := by
  induction h with
  | refl => exact List.prefix_refl _
  | tail _ hstep ih => exact ih.trans (hstep.prefixed id)

theorem PathStep.others {s : State} {l : List (Nat×Event)} (h : Run Step w.store.state l s)
    (hb : ∀e∈l, e.2.background) : Relation.ReflTransGen (PathStep digests validate) w
      { w with store := { w.store with state := s } } := by
  induction h with
  | refl => exact .refl
  | snoc _ hstep ih =>
    have hbefore := ih fun e he => hb e (List.mem_append_left _ he)
    exact hbefore.tail (.other (hb _ (List.mem_append_right _ (List.mem_singleton_self _))) hstep)

/-- The provenance of every Forward in every state that the commands reach. -/
theorem path_provenance (hinj : Function.Injective digests.topology) {world : World}
    {member : ActorId→ScopeId→Bool} {w w' : PathWorld τ}
    (h : Relation.ReflTransGen (PathStep digests validate) (PathWorld.start world member) w)
    (hlater : Relation.ReflTransGen (PathStep digests validate) w w') (id : ForwardId) :
    (∀i, w.store.state.intent id=some i→
      PathTables.Consistent digests w.store.bindings ⟨id,i.scopeId,i.revision,i.spec⟩) ∧
    (w.store.bindings.bindings id).map PathBinding.sequence=
      List.range' 1 (w.store.bindings.bindings id).length ∧
    (w.store.bindings.bindings id).length≤64 ∧
    w.store.bindings.bindings id<+:w'.store.bindings.bindings id ∧
    ((w.store.bindings.currentBinding id).isSome ↔ ∃selection topology i record,
      w.applied id=some (selection,topology) ∧ w.moved id=false ∧
      w.store.state.intent id=some i ∧ i.spec.topology=topology ∧
      w.store.bindings.templates.lookup
        (i.scopeId,selection.templateId,selection.revision)=some record ∧
      record.configDigest=selection.configDigest ∧ PathTables.Gives record.config topology) := by
  have k := (Provenance.start digests world member).reached hinj h
  exact ⟨fun i hi => k.consistent hi,k.numbered.sequences id,k.numbered.bounded id,
    PathStep.run_prefixed hlater id,k.bound_iff⟩

end

/-- Digests that lose nothing. -/
def pathDigests : PathDigests (Topology⊕Spec) := ⟨fun _ profile => profile,.inr,.inl⟩

def profileAnswer : State→ActorId→ScopeId→TemplateConfig→Except Error Nat := fun _ _ _ _ => .ok 3

/-- A Relay is created, its path is published as a template and the template applied to it. -/
def bindingRun (st : Store (PathTables (Topology⊕Spec))) :
    Except Error (Store (PathTables (Topology⊕Spec))) := do
  let (created,_) ← st.create 1 7 0 1 (relaySpec true)
  let tables ← created.bindings.publish pathDigests 2 7 0 5 0 ⟨[.tcp],[0,1],[(1,1)],⟨1,1⟩⟩ (.ok 3) 0
  let (bound,_) ← Store.applyPath (pathPorts pathDigests profileAnswer)
    { created with bindings := tables } 3 7 0 1 1 ⟨5,1,3⟩
  pure bound

theorem bindingRun_reaches {w : PathWorld (Topology⊕Spec)} {t : Store (PathTables (Topology⊕Spec))}
    (h : bindingRun w.store=.ok t) : ∃w', w'.store=t ∧
      Relation.ReflTransGen (PathStep pathDigests profileAnswer) w w' := by
  simp only [bindingRun,do_ok] at h
  obtain ⟨⟨created,_⟩,hcreate,tables,hpublish,⟨bound,_⟩,hbind,rfl⟩ := h
  have hselection : PathTables.parsePathSelection ⟨5,1,3⟩ := by decide
  exact ⟨_,rfl,((Relation.ReflTransGen.single (.create hcreate)).tail (.publish hpublish)).tail
    (.applyPath hselection hbind)⟩

theorem path_provenance_bound : ∃w, Relation.ReflTransGen (PathStep pathDigests profileAnswer)
      (PathWorld.start openWorld fun _ _ => true) w ∧
    (w.store.bindings.bindings 1).map PathBinding.sequence=[1] ∧
    (w.store.bindings.currentBinding 1).isSome ∧ w.moved 1=false ∧
    ∃i, w.store.state.intent 1=some i ∧
      PathTables.Consistent pathDigests w.store.bindings ⟨1,i.scopeId,i.revision,i.spec⟩ := by
  have hrun : ((performs (State.initial openWorld) startRun).bind fun s =>
      (bindingRun ⟨s,fun _ _ => true,∅,PathTables.empty⟩).toOption.map fun t =>
        ((t.bindings.bindings 1).length,(t.bindings.currentBinding 1).isSome,
          (t.state.intent 1).isSome))=some (1,true,true) := by
    decide +kernel
  simp only [do_some,toOption_ok,Option.isSome_iff_exists] at hrun
  obtain ⟨s,hs,t,ht,hlength,⟨x,hx⟩,i,hi⟩ := hrun
  have hstart : Relation.ReflTransGen (PathStep pathDigests profileAnswer)
      (PathWorld.start openWorld fun _ _ => true)
      ⟨⟨s,fun _ _ => true,∅,PathTables.empty⟩,fun _ => none,fun _ => false⟩ :=
    PathStep.others (run_performs hs) (by decide)
  obtain ⟨w,rfl,hw⟩ := bindingRun_reaches (w := ⟨_,fun _ => none,fun _ => false⟩) ht
  have hinj : Function.Injective pathDigests.topology := fun _ _ h => Sum.inl.inj h
  have hreach := hstart.trans hw
  obtain ⟨hconsistent,hnumbers,-,-,hbound⟩ := path_provenance hinj hreach .refl 1
  obtain ⟨-,-,-,-,-,hmoved,-⟩ := hbound.mp (Option.isSome_of_eq_some hx)
  rw [hlength] at hnumbers
  exact ⟨w,hreach,hnumbers,Option.isSome_of_eq_some hx,hmoved,i,hi,hconsistent i hi⟩

end TuneX.Control
