import TuneX.Control.Requests
import TuneX.Control.Reservations

namespace TuneX.Control

open Framework

variable {β ω ρ δ : Type} {st t : Store β} {p : Ports β ω ρ δ}

def Command.target (s : State) : Command ω→Option ForwardId
  | .create _ => none
  | .update id _ _ => some id
  | .applyPath id _ _ => some id
  | .remove id _ => some id
  | .retry operation _ => (s.operations.find? fun o => o.id=operation).map Operation.forwardId
  | .other _ => none

def Command.expected : Command ω→Option Nat
  | .create _ => none
  | .update _ expected _ => some expected
  | .applyPath _ expected _ => some expected
  | .remove _ expected => some expected
  | .retry _ expected => some expected
  | .other _ => none

/-- What a commit does to the intents: nothing, a new Forward, or the next revision of the one that
the command names, which still was at the expected revision. -/
inductive Effect (st : Store β) (a : Attempt ω) (t : Store β) : Prop
  | keep (h : Kept st t)
  | create {spec : Spec} (hc : a.command=.create spec) (hn : st.state.intent a.newId=none)
      (h : Revised st a.newId ⟨a.scope,1,spec,false⟩ t)
  | change {id : ForwardId} {i next : Intent} (ht : a.command.target st.state=some id)
      (he : a.command.expected=some i.revision) (hi : st.state.intent id=some i) (hd : ¬i.deleting)
      (hn : next.revision=i.revision+1) (h : Revised st id next t)

variable {a : Attempt ω} {r : Response ρ} {i : Intent} {w : World} {m : ActorId→ScopeId→Bool}
  {s : State}

theorem Ports.execute_effect (hs : st.state.ValidSpecs) (h : p.execute a st=.ok (t,r)) :
    Effect st a t := by
  unfold execute at h
  have hintent : ∀id row, st.state.forwards.lookup id=some row→
      st.state.intent id=some row.intent :=
    fun id row hrow => State.intent_some.mpr ⟨row,hrow,rfl⟩
  cases hc : a.command
  all_goals simp only [hc,do_ok,Prod.mk.injEq] at h
  case create spec =>
    obtain ⟨-,x,hx,rfl,-⟩ := h
    obtain ⟨hn,hr⟩ := Store.create_revised hx
    exact .create hc hn hr
  case update id expected spec =>
    obtain ⟨-,x,hx,rfl,-⟩ := h
    obtain ⟨row,hrow,hd,rfl,⟨-,hstate,hrev⟩ | ⟨-,hr⟩⟩ := Store.update_revised hx
    · exact .keep ⟨fun id => by rw [hstate]; rfl,hrev⟩
    · exact .change (by rw [hc]; rfl) (by rw [hc]; rfl) (hintent id row hrow) hd rfl hr
  case applyPath id expected selection =>
    obtain ⟨x,hx,rfl,-⟩ := h
    obtain ⟨row,spec,hrow,hd,rfl,-,⟨-,hstate,hrev⟩ | ⟨-,hr⟩⟩ := Store.applyPath_revised hx
    · exact .keep ⟨fun id => by rw [hstate]; rfl,hrev⟩
    · exact .change (by rw [hc]; rfl) (by rw [hc]; rfl) (hintent id row hrow) hd rfl hr
  case remove id expected =>
    obtain ⟨-,x,hx,rfl,-⟩ := h
    obtain ⟨row,hrow,hd,rfl,hr⟩ := Store.remove_revised hs hx
    exact .change (by rw [hc]; rfl) (by rw [hc]; rfl) (hintent id row hrow) hd rfl hr
  case retry operation expected =>
    obtain ⟨-,x,hx,rfl,-⟩ := h
    exact .keep (Store.retry_kept hs hx).1
  case other c =>
    obtain ⟨x,hx,rfl,-⟩ := h
    exact .keep ((p.exec_background a c st x.1 x.2 hx).kept hs).2

theorem Ports.execute_alive {id : ForwardId} (hs : st.state.ValidSpecs)
    (h : p.execute a st=.ok (t,r)) (ht : a.command.target st.state=some id)
    (hi : st.state.intent id=some i) : ¬i.deleting := by
  unfold execute at h
  obtain ⟨row,hrow,rfl⟩ := State.intent_some.mp hi
  have hsame : ∀row', st.state.forwards.lookup id=some row'→¬row'.deleting→¬row.deleting := by
    intro row' hrow' hd
    rw [hrow] at hrow'
    cases hrow'
    exact hd
  cases hc : a.command
  all_goals
    simp only [hc,do_ok,Prod.mk.injEq] at h
    rw [hc] at ht
  case create spec =>
    cases ht
  case update id' expected spec =>
    obtain ⟨-,x,hx,-⟩ := h
    cases ht
    obtain ⟨row',hrow',hd,-⟩ := Store.update_revised hx
    exact hsame row' hrow' hd
  case applyPath id' expected selection =>
    obtain ⟨x,hx,-⟩ := h
    cases ht
    obtain ⟨row',-,hrow',hd,-⟩ := Store.applyPath_revised hx
    exact hsame row' hrow' hd
  case remove id' expected =>
    obtain ⟨-,x,hx,-⟩ := h
    cases ht
    obtain ⟨row',hrow',hd,-⟩ := Store.remove_revised hs hx
    exact hsame row' hrow' hd
  case retry operation expected =>
    obtain ⟨-,x,hx,-⟩ := h
    obtain ⟨-,op,row',ho,hrow',hd⟩ := Store.retry_kept hs hx
    rw [Command.target,ho] at ht
    cases ht
    exact hsame row' hrow' hd
  case other c =>
    cases ht

/-- The stored revisions of a Forward are those up to its current one. -/
structure Linear (st : Store β) : Prop where
  known : ∀id n spec, st.revisions.lookup (id,n)=some spec→
    ∃i, st.state.intent id=some i ∧ 1≤n ∧ n ≤ i.revision
  stored : ∀id i, st.state.intent id=some i→∀n, 1≤n→n ≤ i.revision→
    ∃spec, st.revisions.lookup (id,n)=some spec

theorem Linear.kept (h : Linear st) (hk : Kept st t) : Linear t := by
  constructor
  · intro id n spec hn
    rw [hk.revisions] at hn
    rw [hk.intents]
    exact h.known id n spec hn
  · intro id i hi
    rw [hk.intents] at hi
    rw [hk.revisions]
    exact h.stored id i hi

theorem Linear.revised {id : ForwardId} {next : Intent} (h : Linear st)
    (hold : ∀i, st.state.intent id=some i→next.revision=i.revision+1)
    (hnew : st.state.intent id=none→next.revision=1) (hr : Revised st id next t) : Linear t := by
  have hpos : 1≤next.revision := by
    cases hi : st.state.intent id with
    | none => rw [hnew hi]
    | some i =>
      rw [hold i hi]
      exact Nat.le_add_left 1 _
  constructor
  · intro j n spec hn
    rw [hr.revisions,Table.lookup_insert_some] at hn
    rw [hr.intents]
    obtain ⟨hkey,rfl⟩ | ⟨-,hn⟩ := hn
    · cases hkey
      exact ⟨next,if_pos rfl,hpos,le_rfl⟩
    · obtain ⟨i,hi,hl,hu⟩ := h.known j n spec hn
      split_ifs with hj
      · subst hj
        refine ⟨next,rfl,hl,?_⟩
        have hnext := hold i hi
        omega
      · exact ⟨i,hi,hl,hu⟩
  · intro j i hi n hl hu
    rw [hr.intents] at hi
    rw [hr.revisions,Table.lookup_insert_eq]
    split_ifs at hi with hj
    · subst hj
      cases hi
      by_cases hn : n=next.revision
      · rw [hn,if_pos rfl]
        exact ⟨_,rfl⟩
      · have hkey : (j,n)≠(j,next.revision) := fun he => hn (Prod.mk.inj he).2
        rw [if_neg hkey]
        cases hi : st.state.intent j with
        | none =>
          have hone := hnew hi
          omega
        | some i =>
          have hnext := hold i hi
          exact h.stored j i hi n hl (by omega)
    · have hkey : (j,n)≠(id,next.revision) := fun he => hj (Prod.mk.inj he).1
      rw [if_neg hkey]
      exact h.stored j i hi n hl hu

theorem Linear.effect (h : Linear st) (he : Effect st a t) : Linear t := by
  cases he with
  | keep hk => exact h.kept hk
  | create _ hn hr =>
    refine h.revised ?_ (fun _ => rfl) hr
    intro i hi
    rw [hn] at hi
    cases hi
  | change _ _ hi _ hnext hr =>
    refine h.revised ?_ ?_ hr
    · intro i' hi'
      rw [hi] at hi'
      cases hi'
      exact hnext
    · intro hn
      rw [hi] at hn
      cases hn

variable {db db' : Database β ω ρ δ} {l : List (KeyedLabel (Attempt ω) (Response ρ) Error)}
  {e : KeyedLabel (Attempt ω) (Response ρ) Error} [DecidableEq δ]

theorem Ports.moves_effect (hs : db.store.state.ValidSpecs) (h : p.service.Moves db e db') :
    Kept db.store db'.store ∨ ∃tx a r, e=.commit tx a r ∧ p.execute a db.store=.ok (db'.store,r) := by
  have hsame : Kept db.store db.store := ⟨fun _ => rfl,rfl⟩
  cases h with
  | commit _ h => exact .inr ⟨_,_,_,rfl,h⟩
  | other h => exact .inl (Background.kept h hs).2
  | _ => exact .inl hsame

theorem Ports.moves_linear (hs : db.store.state.ValidSpecs) (hl : Linear db.store)
    (h : p.service.Moves db e db') : Linear db'.store := by
  obtain hk | ⟨tx,a,r,-,hx⟩ := moves_effect hs h
  · exact hl.kept hk
  · exact hl.effect (execute_effect hs hx)

theorem Ports.run_linear {b : β} (h : Run p.service.Moves (Database.initial w m b) l db) :
    db.store.state.ValidSpecs ∧ Linear db.store := by
  refine h.invariant (fun db => db.store.state.ValidSpecs ∧ Linear db.store) ?_ ⟨?_,?_,?_⟩
  · intro db e db' hm hdb
    obtain ⟨l',hl'⟩ := moves_run hm
    refine ⟨?_,moves_linear hdb.1 hdb.2 hm⟩
    exact hl'.invariant State.ValidSpecs (fun _ _ _ hs ha => (step_acts ha hs).validSpecs ha) hdb.1
  · intro id row hrow
    simp [Database.initial,State.initial] at hrow
  · intro id n spec hn
    simp [Database.initial] at hn
  · intro id i hi
    simp [Database.initial,State.initial,State.intent] at hi

/-- A step that writes the intent of a Forward commits a command: one that creates it, or one that
names it and expects the revision that it had. -/
structure Changes (db : Database β ω ρ δ) (e : KeyedLabel (Attempt ω) (Response ρ) Error)
    (db' : Database β ω ρ δ) (id : ForwardId) (a : Attempt ω) (next : Intent) : Prop where
  commit : ∃tx r, e=.commit tx a r
  written : db'.store.state.intent id=some next
  row : db'.store.revisions=db.store.revisions.insert (id,next.revision) next.spec
  follows : (db.store.state.intent id=none ∧ next.revision=1 ∧ ∃spec, a.command=.create spec) ∨
    ∃i, db.store.state.intent id=some i ∧ ¬i.deleting ∧ next.revision=i.revision+1 ∧
      a.command.target db.store.state=some id ∧ a.command.expected=some i.revision

theorem Ports.moves_changes (hs : db.store.state.ValidSpecs) (h : p.service.Moves db e db')
    (id : ForwardId) : db'.store.state.intent id=db.store.state.intent id ∨
      ∃a next, Changes db e db' id a next := by
  obtain hk | ⟨tx,a,r,rfl,hx⟩ := moves_effect hs h
  · exact .inl (hk.intents id)
  · cases execute_effect hs hx with
    | keep hk => exact .inl (hk.intents id)
    | create hc hn hr =>
      by_cases hid : id=a.newId
      · subst hid
        refine .inr ⟨a,_,⟨tx,r,rfl⟩,?_,hr.revisions,.inl ⟨hn,rfl,_,hc⟩⟩
        rw [hr.intents,if_pos rfl]
      · left
        rw [hr.intents,if_neg hid]
    | @change j i next ht he hi hd hnext hr =>
      by_cases hid : id=j
      · subst hid
        refine .inr ⟨a,next,⟨tx,r,rfl⟩,?_,hr.revisions,.inr ⟨i,hi,hd,hnext,ht,he⟩⟩
        rw [hr.intents,if_pos rfl]
      · left
        rw [hr.intents,if_neg hid]

theorem Ports.moves_stored {k : ForwardId×Nat} {spec : Spec} (hs : db.store.state.ValidSpecs)
    (h : p.service.Moves db e db') (hk : db.store.revisions.lookup k=some spec) :
    db'.store.revisions.lookup k=some spec := by
  have hinsert : ∀id next, Revised db.store id next db'.store→
      db'.store.revisions.lookup k=some spec := by
    intro id next hr
    have hne : k≠(id,next.revision) := by
      intro he
      rw [he,hr.fresh] at hk
      cases hk
    rw [hr.revisions,Table.lookup_insert_eq,if_neg hne]
    exact hk
  obtain hkept | ⟨tx,a,r,-,hx⟩ := moves_effect hs h
  · rw [hkept.revisions]
    exact hk
  · cases execute_effect hs hx with
    | keep hkept =>
      rw [hkept.revisions]
      exact hk
    | create _ _ hr | change _ _ _ _ _ hr => exact hinsert _ _ hr

theorem Ports.run_revision {b : β} {id : ForwardId}
    {l' : List (KeyedLabel (Attempt ω) (Response ρ) Error)}
    (hrun : Run p.service.Moves (Database.initial w m b) l db) (h : Run p.service.Moves db l' db')
    (hi : db.store.state.intent id=some i) :
    ∃i', db'.store.state.intent id=some i' ∧ i.revision ≤ i'.revision := by
  induction h with
  | refl => exact ⟨i,hi,le_rfl⟩
  | snoc hr hm ih =>
    obtain ⟨i',hi',hle⟩ := ih
    obtain hsame | ⟨a,next,hc⟩ := moves_changes (run_linear (hrun.trans hr)).1 hm id
    · exact ⟨i',hsame.trans hi',hle⟩
    · refine ⟨next,hc.written,?_⟩
      obtain ⟨hn,-⟩ | ⟨i'',hi'',-,hnext,-⟩ := hc.follows
      · rw [hi'] at hn
        cases hn
      · rw [hi'] at hi''
        cases hi''
        omega

omit [DecidableEq δ] in
theorem Ports.execute_same {id : ForwardId} {expected : Nat} (h : p.execute a st=.ok (t,r))
    (hc : a.command=.update id expected i.spec) (hi : st.state.intent id=some i) :
    t.state={ st.state with clock := t.state.clock } ∧ t.revisions=st.revisions := by
  unfold execute at h
  simp only [hc,do_ok,Prod.mk.injEq] at h
  obtain ⟨-,x,hx,rfl,-⟩ := h
  obtain ⟨row',hrow',rfl⟩ := State.intent_some.mp hi
  obtain ⟨row,hrow,-,-,⟨-,hstate,hrev⟩ | ⟨hs,-⟩⟩ := Store.update_revised hx
  · refine ⟨?_,hrev⟩
    rw [hstate]
  · rw [hrow] at hrow'
    cases hrow'
    exact absurd rfl hs

omit [DecidableEq δ] in
theorem Ports.execute_same_path {id : ForwardId} {expected : Nat} {selection : PathSelection}
    (h : p.execute a st=.ok (t,r)) (hc : a.command=.applyPath id expected selection)
    (hi : st.state.intent id=some i)
    (hspec : p.resolve st.bindings st.state a.actor ⟨id,i.scopeId,i.revision,i.spec⟩
      selection=.ok i.spec) :
    t.state={ st.state with clock := t.state.clock } ∧ t.revisions=st.revisions := by
  simp only [execute,hc,do_ok,Prod.mk.injEq] at h
  obtain ⟨x,hx,rfl,-⟩ := h
  obtain ⟨row',hrow',rfl⟩ := State.intent_some.mp hi
  obtain ⟨row,spec,hrow,-,-,hresolved,hupdated⟩ := Store.applyPath_revised hx
  rw [hrow] at hrow'
  cases hrow'
  have hsame := Except.ok.inj (hresolved.symm.trans hspec)
  obtain ⟨-,hstate,hrev⟩ | ⟨hs,-⟩ := hupdated
  · refine ⟨?_,hrev⟩
    rw [hstate]
  · exact absurd hsame.symm hs

/-- Revisions are a linear history: a reached state stores exactly the revisions up to the current
one, no stored row changes, and every change is the next revision of a Forward that is not being
deleted, by a command that expects the revision before it. A new intent or a path that leaves the
intent as it is commits nothing. -/
theorem forward_revisions_linear {w : World} {m : ActorId→ScopeId→Bool} {b : β}
    (hrun : Run p.service.Moves (Database.initial w m b) l db) (hstep : p.service.Moves db e db') :
    (∀id n, (∃spec, db.store.revisions.lookup (id,n)=some spec) ↔
      ∃i, db.store.state.intent id=some i ∧ 1≤n ∧ n ≤ i.revision) ∧
    (∀k spec, db.store.revisions.lookup k=some spec→db'.store.revisions.lookup k=some spec) ∧
    (∀id, db'.store.state.intent id≠db.store.state.intent id→∃a next, Changes db e db' id a next) ∧
    (∀tx a r id i, e=.commit tx a r→a.command.target db.store.state=some id→
      db.store.state.intent id=some i→¬i.deleting) ∧
    (∀tx a r id expected i, e=.commit tx a r→a.command=.update id expected i.spec→
      db.store.state.intent id=some i→
      db'.store.state={ db.store.state with clock := db'.store.state.clock } ∧
        db'.store.revisions=db.store.revisions) ∧
    (∀tx a r id expected selection i, e=.commit tx a r→a.command=.applyPath id expected selection→
      db.store.state.intent id=some i→
      p.resolve db.store.bindings db.store.state a.actor ⟨id,i.scopeId,i.revision,i.spec⟩
        selection=.ok i.spec→
      db'.store.state={ db.store.state with clock := db'.store.state.clock } ∧
        db'.store.revisions=db.store.revisions) ∧
    ∀l₂ db₂ e₂ db₃ id a next a₂ next₂, Run p.service.Moves db' l₂ db₂→p.service.Moves db₂ e₂ db₃→
      Changes db e db' id a next→Changes db₂ e₂ db₃ id a₂ next₂→
      a.command.expected≠a₂.command.expected := by
  obtain ⟨hs,hl⟩ := Ports.run_linear hrun
  refine ⟨?_,fun k spec hk => Ports.moves_stored hs hstep hk,?_,?_,?_,?_,?_⟩
  · intro id n
    constructor
    · rintro ⟨spec,hn⟩
      exact hl.known id n spec hn
    · rintro ⟨i,hi,hlow,hup⟩
      exact hl.stored id i hi n hlow hup
  · intro id hne
    obtain hsame | hc := Ports.moves_changes hs hstep id
    · exact absurd hsame hne
    · exact hc
  · rintro tx a r id i rfl ht hi
    cases hstep with
    | commit _ hx => exact Ports.execute_alive hs hx ht hi
  · rintro tx a r id expected i rfl hc hi
    cases hstep with
    | commit _ hx => exact Ports.execute_same hx hc hi
  · rintro tx a r id expected selection i rfl hc hi hspec
    cases hstep with
    | commit _ hx => exact Ports.execute_same_path hx hc hi hspec
  · intro l₂ db₂ e₂ db₃ id a next a₂ next₂ h₂ hstep₂ hfirst hsecond
    have hrun' := hrun.snoc hstep
    obtain ⟨i,hi,hle⟩ := Ports.run_revision hrun' h₂ hfirst.written
    obtain ⟨hn,-⟩ | ⟨i₂,hi₂,-,-,-,he₂⟩ := hsecond.follows
    · rw [hi] at hn
      cases hn
    · rw [hi] at hi₂
      cases hi₂
      rw [he₂]
      obtain ⟨-,-,spec,hspec⟩ | ⟨i₁,-,-,hnext,-,he₁⟩ := hfirst.follows
      · rw [hspec]
        simp [Command.expected]
      · rw [he₁]
        intro he
        have hsame := Option.some.inj he
        omega

theorem Background.of_run {l : List (Nat×Event)} (h : Run Step st.state l s)
    (hb : l.all fun e => e.2.background) : Background st { st with state := s } := by
  induction l generalizing st with
  | nil =>
    obtain rfl := h.nil_inv
    exact .refl st
  | cons e l ih =>
    obtain ⟨u,hu,hl⟩ := h.cons_inv
    simp only [List.all_cons,Bool.and_eq_true] at hb
    have hrest : Background { st with state := u } { st with state := s } := ih hl hb.2
    exact .event hb.1 hu hrest

/-- No path bindings and no other commands. -/
def plainPorts : Ports Unit Empty Unit (Content Empty) where
  digest := id
  resolve := fun _ _ _ _ _ => .error .notFound
  preserve := fun _ _ _ => .ok ()
  accept := fun _ _ _ _ _ => .error .notFound
  enter := fun _ c => c.elim
  exec := fun _ c => c.elim
  exec_background := fun _ c => c.elim

/-- Scope 0 has its two Nodes in session. -/
def plainStore (s : State) : Database Unit Empty Unit (Content Empty) :=
  ⟨⟨s,fun _ _ => true,∅,()⟩,∅,∅⟩

theorem plainStore_run (h : performs (State.initial openWorld) startRun=some s) :
    Run plainPorts.service.Moves (Database.initial openWorld (fun _ _ => true) ()) [.other]
      (plainStore s) := by
  have hrun := run_performs h
  have hstart : Background (plainStore (State.initial openWorld)).store (plainStore s).store :=
    .of_run hrun (by decide)
  exact .single (.other hstart)

def createRequest : Attempt Empty := ⟨7,0,1,.create (directSpec 100),1,1⟩

def moveRequest : Attempt Empty := ⟨7,0,2,.update 1 1 (directSpec 200),0,2⟩

theorem forward_revisions_linear_moved : ∃l db e db',
    Run plainPorts.service.Moves (Database.initial openWorld (fun _ _ => true) ()) l db ∧
      plainPorts.service.Moves db e db' ∧
      db.store.revisions.lookup (1,1)=some (directSpec 100) ∧
      db'.store.revisions.lookup (1,1)=some (directSpec 100) ∧
      db'.store.revisions.lookup (1,2)=some (directSpec 200) := by
  have hrun : ((performs (State.initial openWorld) startRun).bind fun s =>
      (plainPorts.service.submit (plainStore s) createRequest).toOption.bind fun x =>
      (plainPorts.service.submit x.1 moveRequest).toOption.map fun y =>
        (decide (x.1.store.revisions.lookup (1,1)=some (directSpec 100)),
          decide (y.1.store.revisions.lookup (1,2)=some (directSpec 200)),
          (x.1.rows.lookup (0,7,2)).isNone))=some (true,true,true) := by
    decide +kernel
  simp only [do_some,decide_eq_true_eq,toOption_ok] at hrun
  obtain ⟨s,hs,⟨db,r⟩,hx,⟨db',r'⟩,hy,hfirst,hsecond,hnone⟩ := hrun
  obtain ⟨hheld,⟨hsome,-⟩ | hcreate⟩ := KeyedService.submit_run rfl hx
  · cases hsome
  · obtain ⟨-,⟨hsome,-⟩ | hmove⟩ := KeyedService.submit_run hheld hy
    · have hkey : plainPorts.service.key moveRequest=(0,7,2) := rfl
      rw [hkey,Option.isNone_iff_eq_none.mp hnone] at hsome
      cases hsome
    · obtain ⟨mid,hstart,hrest⟩ := hmove.cons_inv
      obtain ⟨last,hcommit,hnil⟩ := hrest.cons_inv
      obtain rfl := hnil.nil_inv
      have hlist := ((plainStore_run hs).trans hcreate).snoc hstart
      have hmid : mid.store.revisions.lookup (1,1)=some (directSpec 100) := by
        cases hstart with
        | start => exact hfirst
      exact ⟨_,mid,_,_,hlist,hcommit,hmid,
        (forward_revisions_linear hlist hcommit).2.1 _ _ hmid,hsecond⟩

end TuneX.Control
