import TuneX.Control.PathProvenance

namespace TuneX.Control

open Framework

/-- The stored tables, with what the last application of a template gave each Forward and whether
an update has changed it since. -/
structure PathWorld (τ : Type) where
  store : Store (PathTables τ)
  applied : ForwardId→Option (PathSelection×Topology)
  moved : ForwardId→Bool

section
variable {τ : Type} [DecidableEq τ] (digests : PathDigests τ)
  (validate : State→ActorId→ScopeId→TemplateConfig→Except Error Nat)

/-- The path bindings as the Forward commands use them. -/
def pathPorts : Ports (PathTables τ) Empty Unit (Content Empty) where
  digest := id
  resolve := fun b s actor f selection =>
    b.resolve digests (validate s actor f.scopeId) f selection
  preserve := fun b current next => b.preserve digests current next
  accept := fun b now actor next selection => b.accept digests now actor next selection
  enter := fun _ c => c.elim
  exec := fun _ c => c.elim
  exec_background := fun _ c => c.elim

def State.topology (s : State) (id : ForwardId) : Option Topology :=
  (s.intent id).map fun i => i.spec.topology

def PathWorld.updated (w : PathWorld τ) (t : Store (PathTables τ)) : PathWorld τ :=
  ⟨t,w.applied,fun j => w.moved j || decide (t.state.topology j≠w.store.state.topology j)⟩

/-- The world after a template was applied to a Forward. -/
def PathWorld.bound (w : PathWorld τ) (t : Store (PathTables τ)) (id : ForwardId)
    (selection : PathSelection) : PathWorld τ :=
  ⟨t,fun j => if j=id then (t.state.topology id).map (selection,·) else w.applied j,
    fun j => if j=id then false else w.moved j⟩

/-- One transaction; a refused one is no step, since it changes nothing. -/
inductive PathStep (w : PathWorld τ) : PathWorld τ→Prop
  | create {now : Nat} {actor : ActorId} {scope : ScopeId} {id : ForwardId} {spec : Spec}
      {t : Store (PathTables τ)} {r : ForwardAccepted}
      (h : w.store.create now actor scope id spec=.ok (t,r)) : PathStep w { w with store := t }
  | update {now expected : Nat} {actor : ActorId} {scope : ScopeId} {id : ForwardId} {spec : Spec}
      {t : Store (PathTables τ)} {r : ForwardAccepted}
      (h : w.store.update (pathPorts digests validate) now actor scope id expected spec=.ok (t,r)) :
      PathStep w (w.updated t)
  | applyPath {now expected : Nat} {actor : ActorId} {scope : ScopeId} {id : ForwardId}
      {selection : PathSelection} {t : Store (PathTables τ)} {r : ForwardAccepted}
      (hs : PathTables.parsePathSelection selection)
      (h : w.store.applyPath (pathPorts digests validate) now actor scope id expected selection=
        .ok (t,r)) :
      PathStep w (w.bound t id selection)
  | remove {now expected : Nat} {actor : ActorId} {scope : ScopeId} {id : ForwardId}
      {t : Store (PathTables τ)} {r : ForwardAccepted}
      (h : w.store.remove now actor scope id expected=.ok (t,r)) : PathStep w { w with store := t }
  | retry {now operation expected : Nat} {actor : ActorId} {scope : ScopeId}
      {t : Store (PathTables τ)} {r : ForwardAccepted}
      (h : w.store.retry now actor scope operation expected=.ok (t,r)) :
      PathStep w { w with store := t }
  | other {now : Nat} {e : Event} {s : State} (he : e.background)
      (h : Step w.store.state (now,e) s) :
      PathStep w { w with store := { w.store with state := s } }
  | members (m : ActorId→ScopeId→Bool) :
      PathStep w { w with store := { w.store with member := m } }
  | publish {now count : Nat} {actor : ActorId} {scope : ScopeId} {id expected : Nat}
      {config : TemplateConfig} {profile : Except Error Nat} {b : PathTables τ}
      (h : w.store.bindings.publish digests now actor scope id expected config profile count=.ok b) :
      PathStep w { w with store := { w.store with bindings := b } }
  | archive {scope : ScopeId} {id expected : Nat} {b : PathTables τ}
      (h : w.store.bindings.archive digests scope id expected=.ok b) :
      PathStep w { w with store := { w.store with bindings := b } }

/-- What the tables say of the path of every Forward. -/
structure Provenance (w : PathWorld τ) : Prop where
  specs : w.store.state.ValidSpecs
  templates : PathTables.Templates digests w.store.bindings
  numbered : PathTables.Numbered w.store.bindings
  unknown : ∀id, w.store.state.intent id=none→w.store.bindings.bindings id=[]
  recorded : ∀id i, w.store.state.intent id=some i→∀x∈w.store.bindings.bindings id,
    PathTables.Recorded digests w.store.bindings i.scopeId x ∧ x.forwardRevision ≤ i.revision
  current : ∀id, (w.store.bindings.current.lookup id).isSome ↔
    (w.applied id).isSome ∧ w.moved id=false
  latest : ∀id x, w.store.bindings.currentBinding id=some x→
    w.applied id=some (x.selection,x.expandedSpec.topology) ∧
    w.store.state.topology id=some x.expandedSpec.topology

end

theorem Store.acceptUpdate_bindings {β ω ρ δ : Type} {p : Ports β ω ρ δ} {st t : Store β}
    {now : Nat} {actor : ActorId} {current next : Forward} {selection : Option PathSelection}
    {r : ForwardAccepted} (h : st.acceptUpdate p now actor current next selection=.ok (t,r)) :
    match selection with
    | some s => ∃receipt, p.accept st.bindings now actor next s=.ok (t.bindings,receipt)
    | none => (next.revision=current.revision ∧ t.bindings=st.bindings) ∨
      (next.revision≠current.revision ∧ p.preserve st.bindings current next=.ok t.bindings) := by
  simp only [acceptUpdate,do_ok,Prod.mk.injEq] at h
  obtain ⟨v,hv,u,hu,o,ho,rfl,-⟩ := h
  obtain ⟨x,-,rfl⟩ := act_ok hv
  unfold recordUpdate at hu
  cases selection with
  | some s =>
    have hbindings : u.bindings=st.bindings := by
      split_ifs at hu with hn
      · cases hu
        rfl
      · simp only [bind_ok] at hu
        obtain ⟨y,hy,hu⟩ := hu
        obtain ⟨-,rfl⟩ := insertRevision_ok hy
        cases hu
        rfl
    simp only [bindPath,do_ok] at ho
    obtain ⟨⟨b,receipt⟩,hb,rfl⟩ := ho
    rw [hbindings] at hb
    exact ⟨receipt,hb⟩
  | none =>
    cases ho
    split_ifs at hu with hn
    · cases hu
      exact .inl ⟨hn,rfl⟩
    · simp only [do_ok] at hu
      obtain ⟨y,hy,b,hb,rfl⟩ := hu
      obtain ⟨-,rfl⟩ := insertRevision_ok hy
      exact .inr ⟨hn,hb⟩

theorem State.ValidSpecs.run {s t : State} {l : List (Nat×Event)} (hs : s.ValidSpecs)
    (h : Run Step s l t) : t.ValidSpecs :=
  h.invariant State.ValidSpecs (fun _ _ _ hstep ha => (step_acts ha hstep).validSpecs ha) hs

/-- An intent found again later: of the same scope, no older and on the same path. -/
def Intent.Follows (i j : Intent) : Prop :=
  j.scopeId=i.scopeId ∧ i.revision ≤ j.revision ∧ j.spec.topology=i.spec.topology

namespace Provenance

variable {τ : Type} {digests : PathDigests τ} {w : PathWorld τ}

theorem known (k : Provenance digests w) {id : ForwardId} {x : PathBinding τ}
    (hx : x∈w.store.bindings.bindings id) : ∃i, w.store.state.intent id=some i := by
  cases hi : w.store.state.intent id with
  | none =>
    rw [k.unknown id hi] at hx
    exact absurd hx List.not_mem_nil
  | some i => exact ⟨i,rfl⟩

variable {t : Store (PathTables τ)}

theorem follow (k : Provenance digests w) (hs : t.state.ValidSpecs)
    (hb : t.bindings=w.store.bindings)
    (hkeep : ∀id i, w.store.state.intent id=some i→∃j, t.state.intent id=some j ∧ i.Follows j) :
    Provenance digests { w with store := t } := by
  refine ⟨hs,?_,?_,?_,?_,?_,?_⟩
  · rw [hb]
    exact k.templates
  · rw [hb]
    exact k.numbered
  · intro id hnone
    rw [hb]
    apply k.unknown
    cases hi : w.store.state.intent id with
    | none => rfl
    | some i =>
      obtain ⟨j,hj,-⟩ := hkeep id i hi
      rw [hj] at hnone
      exact absurd hnone (by simp)
  · intro id j hj x hx
    rw [hb] at hx ⊢
    obtain ⟨i,hi⟩ := k.known hx
    obtain ⟨j',hj',hscope,hrev,-⟩ := hkeep id i hi
    obtain rfl := Option.some.inj (hj.symm.trans hj')
    obtain ⟨hrec,hle⟩ := k.recorded id i hi x hx
    rw [hscope]
    exact ⟨hrec,hle.trans hrev⟩
  · intro id
    rw [hb]
    exact k.current id
  · intro id x hx
    rw [hb] at hx
    obtain ⟨happlied,htop⟩ := k.latest id x hx
    refine ⟨happlied,?_⟩
    obtain ⟨i,hi⟩ := k.known (PathTables.currentBinding_mem hx).1
    obtain ⟨j,hj,-,-,hsame⟩ := hkeep id i hi
    unfold State.topology at htop ⊢
    rw [hi,Option.map_some,Option.some.injEq] at htop
    rw [hj,Option.map_some,hsame,htop]

theorem kept (k : Provenance digests w) (hs : t.state.ValidSpecs) (hb : t.bindings=w.store.bindings)
    (hkeep : ∀id, t.state.intent id=w.store.state.intent id) :
    Provenance digests { w with store := t } :=
  k.follow hs hb fun id i hi => ⟨i,(hkeep id).trans hi,rfl,le_rfl,rfl⟩

theorem grow (k : Provenance digests w) {b : PathTables τ} (ht : PathTables.Templates digests b)
    (hg : PathTables.Grows w.store.bindings b) (hh : b.history=w.store.bindings.history)
    (hc : b.current=w.store.bindings.current) :
    Provenance digests { w with store := { w.store with bindings := b } } := by
  have hbindings : ∀id, b.bindings id=w.store.bindings.bindings id := by
    intro id
    unfold PathTables.bindings
    rw [hh]
  have hcurrent : ∀id, b.currentBinding id=w.store.bindings.currentBinding id := by
    intro id
    unfold PathTables.currentBinding
    rw [hc,hbindings]
  refine ⟨k.specs,ht,⟨?_,?_,?_⟩,?_,?_,?_,?_⟩
  · intro id
    rw [hbindings]
    exact k.numbered.sequences id
  · intro id
    rw [hbindings]
    exact k.numbered.bounded id
  · intro id s hs
    rw [hbindings]
    rw [hc] at hs
    exact k.numbered.last id s hs
  · intro id hnone
    rw [hbindings]
    exact k.unknown id hnone
  · intro id i hi x hx
    rw [hbindings] at hx
    obtain ⟨hrec,hle⟩ := k.recorded id i hi x hx
    exact ⟨hrec.grows hg,hle⟩
  · intro id
    rw [hc]
    exact k.current id
  · intro id x hx
    rw [hcurrent] at hx
    exact k.latest id x hx

end Provenance

namespace Provenance

section
variable {τ : Type} {digests : PathDigests τ} {w : PathWorld τ} {t : Store (PathTables τ)}

variable {id : ForwardId} {i next : Intent} {selection : PathSelection}

/-- One intent of a state was replaced by a later one of its scope. -/
structure Replaced (s u : State) (id : ForwardId) (i next : Intent) : Prop where
  intents : ∀j, u.intent j=if j=id then some next else s.intent j
  found : s.intent id=some i
  scope : next.scopeId=i.scopeId
  newer : i.revision ≤ next.revision

theorem Replaced.topology {s u : State} (h : Replaced s u id i next) (j : ForwardId) :
    u.topology j=if j=id then some next.spec.topology else s.topology j := by
  unfold State.topology
  rw [h.intents j]
  split
  · rfl
  · rfl

theorem Replaced.same {s u : State} (h : u.forwards=s.forwards) (hi : s.intent id=some i) :
    Replaced s u id i i := by
  refine ⟨fun j => ?_,hi,rfl,le_rfl⟩
  rw [State.intent_congr h]
  split
  · rename_i hj
    rw [hj]
    exact hi
  · rfl

variable (k : Provenance digests w) (h : Replaced w.store.state t.state id i next)
  (hs : t.state.ValidSpecs)
include k h hs

/-- What is left to show of a command on one Forward: the ledger, and where each binding is from. -/
theorem replace {applied : ForwardId→Option (PathSelection×Topology)} {moved : ForwardId→Bool}
    (ht : PathTables.Templates digests t.bindings)
    (hn : PathTables.Numbered t.bindings) (hg : PathTables.Grows w.store.bindings t.bindings)
    (hx : ∀j, ∀x∈t.bindings.bindings j, x∈w.store.bindings.bindings j ∨ j=id ∧
      PathTables.Recorded digests t.bindings next.scopeId x ∧ x.forwardRevision ≤ next.revision)
    (hcurrent : ∀j, (t.bindings.current.lookup j).isSome ↔ (applied j).isSome ∧ moved j=false)
    (hlatest : ∀j x, t.bindings.currentBinding j=some x→
      applied j=some (x.selection,x.expandedSpec.topology) ∧
      t.state.topology j=some x.expandedSpec.topology) : Provenance digests ⟨t,applied,moved⟩ := by
  refine ⟨hs,ht,hn,?_,?_,hcurrent,hlatest⟩
  · intro j hnone
    rw [h.intents j] at hnone
    split at hnone
    · exact absurd hnone (by simp)
    · rename_i hj
      refine List.eq_nil_iff_forall_not_mem.mpr fun x hmem => ?_
      rcases hx j x hmem with hold | ⟨hid,-⟩
      · rw [k.unknown j hnone] at hold
        exact absurd hold List.not_mem_nil
      · exact hj hid
  · intro j i' hi' x hmem
    rw [h.intents j] at hi'
    rcases hx j x hmem with hold | ⟨rfl,hnew⟩
    · split at hi'
      · rename_i hid
        subst hid
        obtain rfl := Option.some.inj hi'
        obtain ⟨hrec,hle⟩ := k.recorded j i h.found x hold
        rw [h.scope]
        exact ⟨hrec.grows hg,hle.trans h.newer⟩
      · obtain ⟨hrec,hle⟩ := k.recorded j i' hi' x hold
        exact ⟨hrec.grows hg,hle⟩
    · rw [if_pos rfl] at hi'
      obtain rfl := Option.some.inj hi'
      exact hnew

theorem updated_preserved (hb : t.bindings=w.store.bindings)
    (htop : ∀x, w.store.bindings.currentBinding id=some x→i.spec.topology=next.spec.topology) :
    Provenance digests (w.updated t) := by
  refine k.replace h hs (hb ▸ k.templates) (hb ▸ k.numbered) (hb ▸ fun _ _ hr => hr)
    (fun j x hx => .inl (hb ▸ hx)) ?_ ?_
  · intro j
    rw [hb,k.current j]
    by_cases hcurrent : (w.store.bindings.current.lookup j).isSome
    · have hsame : t.state.topology j=w.store.state.topology j := by
        rw [h.topology j]
        split
        · rename_i hid
          subst hid
          obtain ⟨s,hs'⟩ := Option.isSome_iff_exists.mp hcurrent
          obtain ⟨x,hx⟩ := k.numbered.current_some hs'
          unfold State.topology
          rw [h.found,Option.map_some,htop x hx]
        · rfl
      simp [hsame]
    · have hno := mt (k.current j).mpr hcurrent
      constructor
      · intro h
        exact absurd h hno
      · rintro ⟨ha,hm⟩
        rw [Bool.or_eq_false_iff] at hm
        exact absurd ⟨ha,hm.1⟩ hno
  · intro j x hx
    rw [hb] at hx
    obtain ⟨happlied,hold⟩ := k.latest j x hx
    refine ⟨happlied,?_⟩
    rw [h.topology j]
    split
    · rename_i hid
      subst hid
      unfold State.topology at hold
      rw [h.found,Option.map_some,htop x hx] at hold
      exact hold
    · exact hold

theorem updated_detached (hb : t.bindings=w.store.bindings.detach id)
    (htop : i.spec.topology≠next.spec.topology) : Provenance digests (w.updated t) := by
  have hbindings : ∀j, t.bindings.bindings j=w.store.bindings.bindings j := by
    intro j
    rw [hb]
    rfl
  have hcurrent : ∀j, t.bindings.current.lookup j=
      if j=id then none else w.store.bindings.current.lookup j := by
    intro j
    rw [hb]
    show (w.store.bindings.current.erase id).lookup j=_
    split
    · rename_i hid
      rw [hid]
      exact AList.lookup_erase _ _
    · rename_i hid
      exact AList.lookup_erase_ne hid
  refine k.replace h hs ?_ ⟨?_,?_,?_⟩ ?_ (fun j x hx => .inl (hbindings j ▸ hx)) ?_ ?_
  · rw [hb]
    exact ⟨k.templates.heads,k.templates.revisions⟩
  · intro j
    rw [hbindings]
    exact k.numbered.sequences j
  · intro j
    rw [hbindings]
    exact k.numbered.bounded j
  · intro j s hs'
    rw [hbindings]
    rw [hcurrent] at hs'
    split at hs'
    · exact absurd hs' (by simp)
    · exact k.numbered.last j s hs'
  · rw [hb]
    exact fun _ _ hr => hr
  · intro j
    rw [hcurrent,h.topology j]
    by_cases hid : j=id
    · subst hid
      have hold : w.store.state.topology j=some i.spec.topology := by
        unfold State.topology
        rw [h.found]
        rfl
      have hne : some next.spec.topology≠some i.spec.topology :=
        fun heq => htop (Option.some.inj heq).symm
      simp [hold,hne]
    · simp only [if_neg hid]
      rw [k.current j]
      simp
  · intro j x hx
    have hmem := (PathTables.currentBinding_mem hx).2
    rw [hcurrent] at hmem
    by_cases hid : j=id
    · rw [if_pos hid] at hmem
      exact absurd hmem (by simp)
    · have hsame : t.bindings.currentBinding j=w.store.bindings.currentBinding j := by
        unfold PathTables.currentBinding
        rw [hcurrent,if_neg hid,hbindings]
      rw [hsame] at hx
      rw [h.topology j,if_neg hid]
      exact k.latest j x hx

theorem bound_reused (hb : t.bindings=w.store.bindings)
    {old : PathBinding τ} (hold : w.store.bindings.currentBinding id=some old)
    (hselection : old.selection=selection)
    (htop : next.spec.topology=old.expandedSpec.topology) :
    Provenance digests (w.bound t id selection) := by
  have hcurrent := (PathTables.currentBinding_mem hold).2
  have hid : t.state.topology id=some next.spec.topology := by
    rw [h.topology id,if_pos rfl]
  refine k.replace h hs (hb ▸ k.templates) (hb ▸ k.numbered) (hb ▸ fun _ _ hr => hr)
    (fun j x hx => .inl (hb ▸ hx)) ?_ ?_
  · intro j
    rw [hb]
    by_cases hj : j=id
    · rw [if_pos hj,if_pos hj,hid,hj,hcurrent]
      simp
    · rw [if_neg hj,if_neg hj]
      exact k.current j
  · intro j x hx
    rw [hb] at hx
    by_cases hj : j=id
    · subst hj
      obtain rfl := Option.some.inj (hold.symm.trans hx)
      rw [if_pos rfl,hid,htop,← hselection]
      exact ⟨rfl,rfl⟩
    · rw [if_neg hj,h.topology j,if_neg hj]
      exact k.latest j x hx

theorem bound_appended {now : Nat} {actor : ActorId} {f : Forward} (hfid : f.id=id)
    (hf : f.revision=next.revision ∧ f.spec=next.spec)
    (hb : PathTables.Appended digests w.store.bindings now actor f selection t.bindings)
    (hparse : PathTables.parsePathSelection selection)
    (htemplate : ∃r, w.store.bindings.templates.lookup
        (i.scopeId,selection.templateId,selection.revision)=some r ∧
      r.configDigest=selection.configDigest ∧ expandPath f.spec r.config=.ok f.spec)
    (hvalid : f.spec.valid) : Provenance digests (w.bound t id selection) := by
  subst hfid
  have hid : t.state.topology f.id=some next.spec.topology := by
    rw [h.topology f.id,if_pos rfl]
  have hgrows : PathTables.Grows w.store.bindings t.bindings := by
    intro key r hr
    rw [hb.written]
    exact hr
  have hnumbered := hb.numbered k.numbered
  refine k.replace h hs ?_ hnumbered hgrows ?_ ?_ ?_
  · rw [hb.written]
    exact ⟨k.templates.heads,k.templates.revisions⟩
  · intro j x hx
    rw [hb.bindings j] at hx
    split at hx
    · rename_i hj
      rcases List.mem_append.mp hx with hx | hx
      · exact .inl (hj ▸ hx)
      · obtain rfl := List.mem_singleton.mp hx
        obtain ⟨r,hr,hrest⟩ := htemplate
        rw [h.scope]
        exact .inr ⟨hj,⟨hparse,hb.revision,hb.time,hvalid,rfl,r,hgrows _ _ hr,hrest⟩,Nat.le_of_eq hf.1⟩
    · exact .inl hx
  · intro j
    rw [hb.current j,hid]
    by_cases hj : j=f.id
    · simp [hj]
    · simp only [if_neg hj]
      exact k.current j
  · intro j x hx
    obtain ⟨hmem,hcurrent⟩ := PathTables.currentBinding_mem hx
    rw [hb.current j] at hcurrent
    by_cases hj : j=f.id
    · subst hj
      rw [if_pos rfl] at hcurrent
      have hlast := hb.bindings f.id
      rw [if_pos rfl] at hlast
      have hnew := List.mem_of_getLast? (hlast ▸ List.getLast?_concat)
      have heq := hnumbered.same hmem hnew (Option.some.inj hcurrent).symm
      rw [if_pos rfl,hid,heq]
      exact ⟨by rw [hf.2]; rfl,by rw [hf.2]⟩
    · have hsame : t.bindings.currentBinding j=w.store.bindings.currentBinding j := by
        unfold PathTables.currentBinding
        rw [hb.current j,hb.bindings j,if_neg hj,if_neg hj]
      rw [hsame] at hx
      rw [if_neg hj,h.topology j,if_neg hj]
      exact k.latest j x hx

end

end Provenance

section
variable {τ : Type} [DecidableEq τ] {digests : PathDigests τ}
  {validate : State→ActorId→ScopeId→TemplateConfig→Except Error Nat} {w w' : PathWorld τ}
  {id : ForwardId} {now expected : Nat} {actor : ActorId} {scope : ScopeId}
  {t : Store (PathTables τ)} {r : ForwardAccepted}

theorem State.intent_of_lookup {s : State} {row : ForwardRow} (h : s.forwards.lookup id=some row) :
    s.intent id=some row.intent :=
  State.intent_some.mpr ⟨row,h,rfl⟩

theorem Provenance.update (k : Provenance digests w) (hinj : Function.Injective digests.topology)
    {spec : Spec}
    (h : w.store.update (pathPorts digests validate) now actor scope id expected spec=.ok (t,r)) :
    Provenance digests (w.updated t) := by
  simp only [Store.update,bind_ok] at h
  obtain ⟨row,hrow,next,hnext,h⟩ := h
  obtain ⟨hlookup,-,-⟩ := Store.currentForUpdate_ok hrow
  have hi := State.intent_of_lookup hlookup
  obtain ⟨l,hrun⟩ := Store.acceptUpdate_run h
  have hs := k.specs.run hrun
  have hbindings := Store.acceptUpdate_bindings h
  obtain ⟨-,hcases⟩ := Store.acceptUpdate_revised hlookup hnext h
  obtain ⟨-,-,⟨hsame,rfl⟩ | ⟨hdiffers,rfl⟩⟩ := State.decideForwardChange_ok hnext
  · rcases hcases with ⟨-,hstate,-⟩ | ⟨hne,-⟩
    · rcases hbindings with ⟨-,hb⟩ | ⟨hne,-⟩
      · exact k.updated_preserved (.same (by rw [hstate]) hi) hs hb fun _ _ => rfl
      · exact absurd rfl hne
    · exact absurd hsame hne
  · rcases hcases with ⟨hsame,-⟩ | ⟨-,hrevised⟩
    · exact absurd hsame hdiffers
    rcases hbindings with ⟨hrev,-⟩ | ⟨-,hpreserve⟩
    · exact absurd hrev (Nat.succ_ne_self _)
    rcases PathTables.preserve_ok hpreserve with ⟨hb,htop⟩ | ⟨htop,hb⟩
    · exact k.updated_preserved ⟨hrevised.intents,hi,rfl,Nat.le_succ _⟩ hs hb
        fun x hx => hinj (htop x hx)
    · exact k.updated_detached ⟨hrevised.intents,hi,rfl,Nat.le_succ _⟩ hs hb
        fun heq => htop (congrArg digests.topology heq)

theorem Provenance.applyPath (k : Provenance digests w) (hinj : Function.Injective digests.topology)
    {selection : PathSelection} (hparse : PathTables.parsePathSelection selection)
    (h : w.store.applyPath (pathPorts digests validate) now actor scope id expected selection=
      .ok (t,r)) : Provenance digests (w.bound t id selection) := by
  simp only [Store.applyPath,do_ok] at h
  obtain ⟨row,hrow,-,spec,hresolve,next,hnext,h⟩ := h
  obtain ⟨hlookup,-,-⟩ := Store.currentForUpdate_ok hrow
  have hi := State.intent_of_lookup hlookup
  obtain ⟨l,hrun⟩ := Store.acceptUpdate_run h
  have hs := k.specs.run hrun
  obtain ⟨receipt,haccept⟩ := Store.acceptUpdate_bindings h
  obtain ⟨-,hcases⟩ := Store.acceptUpdate_revised hlookup hnext h
  have hresolve : w.store.bindings.resolve digests
      (validate w.store.state actor row.scopeId) (row.forward id) selection=.ok spec := hresolve
  simp only [PathTables.resolve,do_ok] at hresolve
  obtain ⟨-,record,hrecord,profileDigest,-,-,hexpand⟩ := hresolve
  obtain ⟨hfound,hdigest⟩ := PathTables.template_found hrecord
  obtain ⟨-,hvalid,hagain⟩ := expandPath_ok hexpand
  have htemplate : ∃r, w.store.bindings.templates.lookup
      (row.intent.scopeId,selection.templateId,selection.revision)=some r ∧
      r.configDigest=selection.configDigest ∧ expandPath spec r.config=.ok spec :=
    ⟨record,hfound,hdigest,hagain⟩
  obtain ⟨-,-,⟨rfl,rfl⟩ | ⟨hdiffers,rfl⟩⟩ := State.decideForwardChange_ok hnext
  · rcases hcases with ⟨-,hstate,-⟩ | ⟨hne,-⟩
    · have hreplaced : Replaced w.store.state t.state id row.intent _ := .same (by rw [hstate]) hi
      rcases PathTables.accept_ok haccept with ⟨hb,old,hold,hselection,htop⟩ | hb
      · exact k.bound_reused hreplaced hs hb hold hselection (hinj htop)
      · exact k.bound_appended hreplaced hs rfl ⟨rfl,rfl⟩ hb hparse htemplate hvalid
    · exact absurd rfl hne
  · rcases hcases with ⟨hsame,-⟩ | ⟨-,hrevised⟩
    · exact absurd hsame hdiffers
    have hreplaced : Replaced w.store.state t.state id row.intent _ :=
      ⟨hrevised.intents,hi,rfl,Nat.le_succ _⟩
    rcases PathTables.accept_ok haccept with ⟨hb,old,hold,hselection,htop⟩ | hb
    · exact k.bound_reused hreplaced hs hb hold hselection (hinj htop)
    · exact k.bound_appended hreplaced hs rfl ⟨rfl,rfl⟩ hb hparse htemplate hvalid

theorem Provenance.step (k : Provenance digests w) (hinj : Function.Injective digests.topology)
    (h : PathStep digests validate w w') : Provenance digests w' := by
  cases h with
  | create h =>
    obtain ⟨hb,l,hrun⟩ := Store.create_bindings h
    obtain ⟨hnone,hrevised⟩ := Store.create_revised h
    refine k.follow (k.specs.run hrun) hb ?_
    intro j i hi
    refine ⟨i,?_,rfl,le_rfl,rfl⟩
    rw [hrevised.intents j,if_neg]
    · exact hi
    · rintro rfl
      rw [hnone] at hi
      exact absurd hi (by simp)
  | update h => exact k.update hinj h
  | applyPath hparse h => exact k.applyPath hinj hparse h
  | @remove _ _ _ _ id _ _ h =>
    obtain ⟨hb,l,hrun⟩ := Store.remove_bindings h
    obtain ⟨row,hrow,-,-,hrevised⟩ := Store.remove_revised k.specs h
    refine k.follow (k.specs.run hrun) hb ?_
    intro j i hi
    rw [hrevised.intents j]
    by_cases hj : j=id
    · subst hj
      have hold := State.intent_of_lookup hrow
      obtain rfl := Option.some.inj (hi.symm.trans hold)
      rw [if_pos rfl]
      exact ⟨_,rfl,rfl,Nat.le_succ _,rfl⟩
    · rw [if_neg hj]
      exact ⟨i,hi,rfl,le_rfl,rfl⟩
  | retry h =>
    obtain ⟨hb,l,hrun⟩ := Store.retry_bindings h
    exact k.kept (k.specs.run hrun) hb (Store.retry_kept k.specs h).1.intents
  | other he h =>
    have hacts := step_acts k.specs h
    refine k.kept (t := { w.store with state := _ }) (hacts.validSpecs k.specs) rfl ?_
    intro j
    exact hacts.intents he j
  | members m => exact k.kept (t := { w.store with member := m }) k.specs rfl fun _ => rfl
  | publish h =>
    rcases PathTables.publish_ok h with rfl | ⟨record,hp⟩
    · exact k
    · refine k.grow (hp.templates k.templates) (hp.grows k.templates) ?_ ?_
      · rw [hp.written]
      · rw [hp.written]
  | archive h =>
    have ht := PathTables.archive_templates h k.templates
    obtain ⟨head,-,rfl⟩ := PathTables.archive_ok h
    exact k.grow ht (fun _ _ hr => hr) rfl rfl

omit [DecidableEq τ] in
theorem PathTables.same_prefixed {b c : PathTables τ} (h : c.bindings=b.bindings) (id : ForwardId) :
    b.bindings id<+:c.bindings id :=
  ⟨[],by rw [List.append_nil,h]⟩

theorem PathStep.prefixed (h : PathStep digests validate w w') (id : ForwardId) :
    w.store.bindings.bindings id<+:w'.store.bindings.bindings id := by
  cases h with
  | create h =>
    exact PathTables.same_prefixed (congrArg PathTables.bindings (Store.create_bindings h).1) id
  | @update now expected actor scope id' spec t r h =>
    simp only [Store.update,bind_ok] at h
    obtain ⟨row,-,next,-,h⟩ := h
    show _<+:t.bindings.bindings id
    rcases Store.acceptUpdate_bindings h with ⟨-,hb⟩ | ⟨-,hpreserve⟩
    · exact PathTables.same_prefixed (congrArg PathTables.bindings hb) id
    · rcases PathTables.preserve_ok hpreserve with ⟨hb,-⟩ | ⟨-,hb⟩
      · exact PathTables.same_prefixed (congrArg PathTables.bindings hb) id
      · exact PathTables.same_prefixed (congrArg PathTables.bindings hb) id
  | @applyPath now expected actor scope id' selection t r _ h =>
    simp only [Store.applyPath,do_ok] at h
    obtain ⟨row,-,-,spec,-,next,-,h⟩ := h
    obtain ⟨receipt,haccept⟩ := Store.acceptUpdate_bindings h
    show _<+:t.bindings.bindings id
    rcases PathTables.accept_ok haccept with ⟨hb,-⟩ | hb
    · exact PathTables.same_prefixed (congrArg PathTables.bindings hb) id
    · rw [hb.bindings id]
      split
      · rename_i hid
        rw [hid]
        exact List.prefix_append _ _
      · exact List.prefix_refl _
  | remove h =>
    exact PathTables.same_prefixed (congrArg PathTables.bindings (Store.remove_bindings h).1) id
  | retry h =>
    exact PathTables.same_prefixed (congrArg PathTables.bindings (Store.retry_bindings h).1) id
  | other | members => exact List.prefix_refl _
  | publish h =>
    rcases PathTables.publish_ok h with rfl | ⟨record,hp⟩
    · exact List.prefix_refl _
    · exact PathTables.same_prefixed (congrArg PathTables.bindings hp.written) id
  | archive h =>
    obtain ⟨head,-,rfl⟩ := PathTables.archive_ok h
    exact List.prefix_refl _

end

end TuneX.Control
