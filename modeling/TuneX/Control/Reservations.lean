import TuneX.Control.Withdrawal

namespace TuneX.Control

open Framework

variable {s t u : State} {f : Forward} {now g : Nat} {n : NodeId} {e : Event} {k : SlotKey}
  {i : Instance}

/-- A step reserves a slot under an identity: a direct intent takes the slot itself, a Relay takes
the slots of the assignments of a new plan. -/
inductive Reserves (s t : State) (k : SlotKey) (i : Instance) : Prop
  | direct {id : ForwardId} {row : ForwardRow} {p : Protocol} (hrow : t.forwards.lookup id=some row)
      (hv : row.spec.via=[]) (hp : p∈row.spec.protocols) (hk : row.spec.slotKey p=k)
      (ho : (t.slot k).owner=some id) (hf : (s.slot k).fence<(t.slot k).fence)
      (hi : i=⟨k.node,⟨k.node,id,p,.direct⟩,(t.slot k).generation,(t.slot k).fence⟩)
  | relay {id : ForwardId} {g : Nat} {d : Deployment} {node : PlanNode} {a : Assignment}
      (hs : s.deployments.lookup (id,g)=none) (hd : t.deployments.lookup (id,g)=some d)
      (hn : node∈d.plan.nodes) (ha : a∈node.assignments) (hk : a.slotOn node.nodeId=k)
      (hi : i=a.instanceOn node.nodeId)

/-- An update that turns a direct intent into a Relay finds no slot of that intent with a
generation above its revision. -/
def switchesInStep (s : State) : Event→Bool
  | .update _ id _ spec => match s.forwards.lookup id with
    | none => true
    | some row => !row.spec.via.isEmpty || spec.via.isEmpty ||
        row.spec.protocols.all fun p => (s.slot (row.spec.slotKey p)).generation ≤ row.revision
  | _ => true

def InStep (s : State) (e : Nat×Event) (t : State) : Prop := Step s e t ∧ switchesInStep s e.2

theorem nextGeneration_le (revision current : Nat) (l : List Nat) :
    revision≤State.nextGeneration revision current l ∧
      current<State.nextGeneration revision current l ∧
      ∀g∈l, g<State.nextGeneration revision current l := by
  have hfold : ∀(l : List Nat) (m : Nat), m≤l.foldl (fun m g => max m (g+1)) m ∧
      ∀g∈l, g<l.foldl (fun m g => max m (g+1)) m := by
    intro l
    induction l with
    | nil => simp
    | cons a l ih =>
      intro m
      obtain ⟨hm,hl⟩ := ih (max m (a+1))
      refine ⟨(le_max_left m (a+1)).trans hm,?_⟩
      intro g hg
      cases List.mem_cons.mp hg with
      | inl he =>
        subst he
        exact lt_of_lt_of_le (Nat.lt_succ_self g) ((le_max_right m (g+1)).trans hm)
      | inr hg => exact hl g hg
  obtain ⟨hm,hl⟩ := hfold l (max revision (current+1))
  refine ⟨(le_max_left _ _).trans hm,?_,hl⟩
  exact lt_of_lt_of_le (Nat.lt_succ_self current) ((le_max_right _ _).trans hm)

theorem mem_ownedGenerations {id : ForwardId} (hn : k.node=n) (ho : (s.slot k).owner=some id) :
    (s.slot k).generation∈s.ownedGenerations n id := by
  unfold State.slot at ho ⊢
  cases hrow : s.slots.lookup k with
  | none => simp [hrow] at ho
  | some row =>
    rw [hrow,Option.getD_some] at ho
    refine List.mem_map.mpr ⟨(k,row),List.mem_filter.mpr ⟨Table.mem_rows.mpr hrow,?_⟩,rfl⟩
    simp [hn,ho]

theorem Spec.valid_path {p : Spec} (h : p.valid) : p.path.Nodup := by
  simp only [Spec.valid,bool_ok] at h
  exact List.nodup_cons.mpr ⟨h.1.2.2,h.1.2.1⟩

theorem Reserves.accepted {actor : ActorId} {b : State} (hv : f.spec.valid)
    (a : b.Accepted now actor f u) (hb : b.slots=s.slots) (hbd : b.deployments=s.deployments)
    (ht : t.slots=u.slots) (htd : t.deployments=u.deployments) (k : SlotKey) :
    (t.slot k).fence=(s.slot k).fence ∨ ∃i, Reserves s t k i := by
  have hslot := (State.reserveRelay_spec (compilePathResources_nodup a.resources_eq) a.reserved_eq).2 k
  rw [← State.slot_congr a.slots,← State.slot_congr ht,State.slot_congr hb] at hslot
  by_cases hk : k∈a.resources.map RelayResource.key
  · right
    obtain ⟨node,hnode,c,hc,hck⟩ := a.covers (Spec.valid_path hv) hk
    have hnew : s.deployments.lookup (f.id,a.generation)=none := by
      rw [Option.eq_none_iff_forall_ne_some]
      intro d hd
      exact lt_irrefl _ (a.generation_fresh (hbd ▸ hd))
    have hplan : t.deployments.lookup (f.id,a.generation)=some (State.newDeployment f a.plan) := by
      rw [htd,a.deployments]
      exact AList.lookup_insert _
    exact ⟨_,.relay hnew hplan hnode hc hck rfl⟩
  · left
    rw [hslot,if_neg hk]

theorem specKeys_mem {p : Spec} (h : k∈State.specKeys p) : ∃q∈p.protocols, p.slotKey q=k :=
  List.mem_map.mp h

theorem Acts.reserves (hv : s.ValidSpecs) (h : Acts s now e t) (k : SlotKey) :
    (t.slot k).fence=(s.slot k).fence ∨ ∃i, Reserves s t k i := by
  have hdirect : ∀{f : Forward} {row : ForwardRow}, t.forwards.lookup f.id=some row→
      row.spec=f.spec→f.spec.via=[]→∀gen : SlotRow→Nat,
      t.slot k=(if k∈State.specKeys f.spec then ⟨some f.id,(s.slot k).fence+1,gen (s.slot k)⟩
        else s.slot k)→(t.slot k).fence=(s.slot k).fence ∨ ∃i, Reserves s t k i := by
    intro f row hrow hspec hvia gen hslot
    split_ifs at hslot with hk
    · right
      obtain ⟨p,hp,hpk⟩ := specKeys_mem hk
      have howner : (t.slot k).owner=some f.id := by rw [hslot]
      have hfence : (s.slot k).fence<(t.slot k).fence := by
        rw [hslot]
        exact Nat.lt_succ_self _
      exact ⟨_,.direct hrow (hspec ▸ hvia) (hspec ▸ hp) (hspec ▸ hpk) howner hfence rfl⟩
    · left
      rw [hslot]
  cases h.books with
  | freed hfreed =>
    left
    obtain hk | ⟨id,keep,-,-,-,hk⟩ := hfreed k
    · rw [hk]
    · rw [hk]
  | command c =>
    have hrow := c.row_eq
    have hspec := c.spec
    have hnd := (Spec.valid_protocols c.valid).1
    have hslots := c.slots
    have hdep := c.deployments
    have hr := c.reserving
    generalize c.reserved=reserved at hslots hdep hr
    cases hr with
    | keep =>
      left
      rw [State.slot_congr hslots]
      rfl
    | reserve _ hvia hres =>
      have hslot := (State.reserve_spec hnd hres).2 k
      rw [← State.slot_congr hslots] at hslot
      exact hdirect hrow hspec hvia (fun _ => 1) hslot
    | @transition old _ _ hvia hres =>
      have hslot := (State.transition_spec hnd hres).2 k
      rw [← State.slot_congr hslots] at hslot
      exact hdirect hrow hspec hvia (fun r => State.nextGeneration c.f.revision r.generation
        (s.ownedGenerations old.spec.nodeId c.f.id)) hslot
    | plan _ hplan =>
      obtain ⟨a⟩ := State.acceptPlan_ok hplan
      exact Reserves.accepted (s := s) c.valid a rfl rfl hslots hdep k
  | @refresh id row actor u hrow _ a hs hd _ => exact Reserves.accepted (hv id row hrow) a rfl rfl hs hd k

theorem Acts.reserves_fence (hv : s.ValidSpecs) (h : Acts s now e t) (hr : Reserves s t k i) :
    (s.slot k).fence<(t.slot k).fence ∧ i.fence=(t.slot k).fence ∧ i.node=k.node := by
  cases hr with
  | direct _ _ _ _ _ hf hi =>
    rw [hi]
    exact ⟨hf,rfl,rfl⟩
  | relay hs hd hn ha hk hi =>
    subst hk hi
    cases (Acts.redeploy (e := (now,e)) hv h).origin hd with
    | kept hd₀ =>
      rw [hs] at hd₀
      cases hd₀
    | planned hsl _ acc _ hts _ _ he _ =>
      subst he
      obtain ⟨hfence,hslot⟩ := acc.fence hn ha
      rw [State.slot_congr hsl] at hfence
      rw [State.slot_congr hts,hslot]
      refine ⟨?_,rfl,rfl⟩
      change _<Assignment.bindingFence _
      omega

theorem Reserves.slot_unique {k' : SlotKey} (ht : Deployed t) (h : Reserves s t k i)
    (h' : Reserves s t k' i) : k=k' := by
  cases h with
  | direct hrow _ _ hk _ _ hi =>
    subst hi
    cases h' with
    | direct hrow' _ _ hk' _ _ hi' =>
      simp only [Instance.mk.injEq,AssignmentId.mk.injEq] at hi'
      obtain ⟨-,⟨-,rfl,rfl,-⟩,-⟩ := hi'
      rw [hrow] at hrow'
      cases hrow'
      exact hk.symm.trans hk'
    | @relay id g d node a _ hd hn ha _ hi' =>
      obtain ⟨-,-,-,hname,hrole,-⟩ := (ht.formed id g d hd).assignment node hn a ha
      have hr : .direct=a.role := by
        have := congrArg (fun j => j.assignmentId.role) hi'
        simpa [Assignment.instanceOn,hname] using this
      exact absurd hr.symm hrole
  | @relay id g d node a _ hd hn ha hk hi =>
    subst hi hk
    obtain ⟨-,hg,-,hname,hrole,-⟩ := (ht.formed id g d hd).assignment node hn a ha
    cases h' with
    | direct _ _ _ _ _ _ hi' =>
      have hr := congrArg (fun j => j.assignmentId.role) hi'
      simp only [Assignment.instanceOn,hname] at hr
      exact absurd hr hrole
    | @relay id' g' d' node' a' _ hd' hn' ha' hk' hi' =>
      obtain ⟨-,hg',-,hname',-⟩ := (ht.formed id' g' d' hd').assignment node' hn' a' ha'
      simp only [Assignment.instanceOn,hname,hname',hg,hg',Instance.mk.injEq,
        AssignmentId.mk.injEq] at hi'
      obtain ⟨hnode,⟨-,rfl,hproto,-⟩,rfl,-⟩ := hi'
      rw [hd] at hd'
      cases hd'
      have hnodes : node=node' :=
        List.inj_on_of_nodup_map (ht.formed id g d hd).nodes_nodup hn hn' hnode
      subst hnodes
      have hassign : a=a' :=
        List.inj_on_of_nodup_map ((ht.formed id g d hd).protocols_nodup node hn) ha ha' hproto
      subst hassign
      exact hk'

/-- A direct identity of a Forward is out of reach: the Forward is being deleted, or it is direct and
holds a slot of that generation or a later one, or it is a Relay of a later revision. -/
def SpentDirect (s : State) (i : Instance) (row : ForwardRow) : Prop :=
  row.deleting ∨
    (row.spec.via=[] ∧ ∃p∈row.spec.protocols,
      (s.slot (row.spec.slotKey p)).owner=some i.assignmentId.forward ∧
        i.generation≤(s.slot (row.spec.slotKey p)).generation) ∨
    (row.spec.via≠[] ∧ i.generation < row.revision)

/-- An identity that has been given. -/
inductive Spent (s : State) (i : Instance) : Prop
  | direct {row : ForwardRow} (hr : i.assignmentId.role=.direct)
      (hrow : s.forwards.lookup i.assignmentId.forward=some row) (h : SpentDirect s i row)
  | relay {d : Deployment} (hr : i.assignmentId.role≠.direct)
      (hd : s.deployments.lookup (i.assignmentId.forward,i.generation)=some d)

theorem Reserves.spent (ht : Deployed t) (h : Reserves s t k i) : Spent t i := by
  cases h with
  | direct hrow hv hp hk ho _ hi =>
    subst hi hk
    exact .direct rfl hrow (.inr (.inl ⟨hv,_,hp,ho,le_rfl⟩))
  | @relay id g d node a _ hd hn ha _ hi =>
    subst hi
    obtain ⟨-,hg,-,hname,hrole,-⟩ := (ht.formed id g d hd).assignment node hn a ha
    refine .relay (d := d) ?_ ?_
    · change a.assignmentId.role≠_
      rw [hname]
      exact hrole
    · change t.deployments.lookup (a.assignmentId.forward,a.deploymentGeneration)=_
      rw [hname,hg]
      exact hd

variable {row : ForwardRow}

theorem SpentDirect.lt_next (current : Nat) (h : SpentDirect s i row)
    (hd : ¬row.deleting) (hrev : row.revision≤f.revision) : i.generation<
      State.nextGeneration f.revision current
        (s.ownedGenerations row.spec.nodeId i.assignmentId.forward) := by
  obtain ⟨hle,-,howned⟩ := nextGeneration_le f.revision current
    (s.ownedGenerations row.spec.nodeId i.assignmentId.forward)
  obtain hdel | ⟨-,p,-,ho,hg⟩ | ⟨-,hg⟩ := h
  · exact absurd hdel hd
  · exact lt_of_le_of_lt hg (howned _ (mem_ownedGenerations rfl ho))
  · omega

theorem State.Commanded.switch (c : s.Commanded now e t)
    (hin : switchesInStep s e) (hrow : s.forwards.lookup c.f.id=some row) (hv : row.spec.via=[])
    (hv' : c.f.spec.via≠[]) : c.f.revision=row.revision+1 ∧
      ∀p∈row.spec.protocols, (s.slot (row.spec.slotKey p)).generation ≤ row.revision := by
  have hcause := c.cause
  generalize c.f=f at hcause hrow hv'
  generalize c.row=new at hcause
  generalize c.kind=kind at hcause
  cases hcause with
  | create hn =>
    rw [hn] at hrow
    cases hrow
  | update hrow' =>
    rw [hrow'] at hrow
    cases hrow
    refine ⟨rfl,?_⟩
    simp only [switchesInStep,hrow',Bool.or_eq_true,Bool.not_eq_true',schema_ok] at hin
    obtain (h | h) | h := hin
    · simp [hv] at h
    · exact absurd (List.isEmpty_iff.mp h) hv'
    · exact h
  | remove hrow' =>
    rw [hrow'] at hrow
    cases hrow
    exact absurd hv hv'
  | @retry _ _ _ id row' hrow' | @reauthorize id _ _ row' _ hrow' =>
    change s.forwards.lookup id=_ at hrow
    rw [hrow'] at hrow
    cases hrow
    exact absurd hv hv'

theorem SpentDirect.command (c : s.Commanded now e t)
    (hin : switchesInStep s e) (hid : c.f.id=i.assignmentId.forward)
    (hrow : s.forwards.lookup c.f.id=some row) (h : SpentDirect s i row) : SpentDirect t i c.row := by
  obtain ⟨hdel,hrev⟩ := c.revision_le hrow
  have hswitch := c.switch hin hrow
  have hspec := c.spec
  have hrevision := c.revision
  have hf := c.valid
  have hslots := c.slots
  have hr := c.reserving
  generalize c.reserved=reserved at hslots hr
  unfold SpentDirect
  rw [hspec,hrevision]
  generalize c.f=f at *
  by_cases hv : f.spec.via=[]
  · right
    left
    refine ⟨hv,?_⟩
    cases hr with
    | keep _ hk =>
      have hsame := hk hv
      rw [hrow,Option.map_some,Option.some.injEq] at hsame
      obtain hd | ⟨-,p,hp,ho,hg⟩ | ⟨hv',-⟩ := h
      · exact absurd hd hdel
      · rw [hsame] at hp ho hg
        refine ⟨p,hp,?_,?_⟩
        · rw [State.slot_congr hslots]
          exact ho
        · rw [State.slot_congr hslots]
          exact hg
      · rw [hsame] at hv'
        exact absurd hv hv'
    | reserve ho =>
      rw [hrow] at ho
      cases ho
    | @transition old _ ho _ hres =>
      rw [hrow] at ho
      cases ho
      obtain ⟨p,l,hp⟩ := List.exists_cons_of_ne_nil (Spec.valid_protocols hf).2
      have hmem : p∈f.spec.protocols := by simp [hp]
      have hkey : f.spec.slotKey p∈State.specKeys f.spec := List.mem_map_of_mem hmem
      have hslot := (State.transition_spec (Spec.valid_protocols hf).1 hres).2 (f.spec.slotKey p)
      rw [← State.slot_congr hslots,if_pos hkey] at hslot
      refine ⟨p,hmem,?_,?_⟩
      · rw [hslot,hid]
      · rw [hslot]
        have hlt := h.lt_next (s.slot (f.spec.slotKey p)).generation hdel hrev
        rw [← hid] at hlt
        exact hlt.le
    | plan hv' => exact absurd hv hv'
  · right
    right
    refine ⟨hv,?_⟩
    obtain hd | ⟨hvia,p,hp,-,hg⟩ | ⟨-,hg⟩ := h
    · exact absurd hd hdel
    · obtain ⟨hnext,hle⟩ := hswitch hvia hv
      have := hle p hp
      omega
    · omega

theorem Acts.holds {id : ForwardId} {row' : ForwardRow} (h : Acts s now e t)
    (hrow : s.forwards.lookup id=some row) (hrow' : t.forwards.lookup id=some row')
    (hspec : row'.spec=row.spec) (hdel : ¬row'.deleting) (hv : row.spec.via=[])
    (hk : k∈State.specKeys row.spec) (ho : (s.slot k).owner=some id)
    (hc : ∀c : s.Commanded now e t, c.f.id≠id) : t.slot k=s.slot k := by
  cases h.books with
  | freed hfreed =>
    obtain hsame | ⟨id',keep,ho',hnk,hr,-⟩ := hfreed k
    · exact hsame
    · rw [ho] at ho'
      cases ho'
      exact absurd (hr.keeps hrow' (hspec ▸ hv) hdel (hspec ▸ hk)) hnk
  | command c => exact c.takes.other ho (hc c).symm
  | @refresh id' r actor u hr hvia a hsl _ _ =>
    have hne : id≠id' := by
      rintro rfl
      rw [hrow] at hr
      cases hr
      exact hvia hv
    exact (a.takes rfl hsl).other ho hne

theorem Acts.row_kept {id : ForwardId} (h : Acts s now e t)
    (hrow : s.forwards.lookup id=some row) (hc : ∀c : s.Commanded now e t, c.f.id≠id) :
    ∃b, t.forwards.lookup id=some { row with recoverySuspended := b } := by
  obtain hf | ⟨-,hf⟩ | ⟨⟨c⟩⟩ := h.forwards
  · exact ⟨row.recoverySuspended,hf ▸ hrow⟩
  · refine ⟨true,?_⟩
    rw [hf,Table.lookup_alter,hrow]
    rfl
  · refine ⟨row.recoverySuspended,?_⟩
    rw [c.forwards,if_neg (hc c).symm]
    exact hrow

theorem Spent.acts (hs : s.ValidSpecs) (h : Acts s now e t) (hin : switchesInStep s e)
    (hi : Spent s i) : Spent t i := by
  cases hi with
  | relay hr hd =>
    obtain ⟨d',hd',-⟩ := (Acts.redeploy (e := (now,e)) hs h).lookup hd
    exact .relay hr hd'
  | @direct row hr hrow hspent =>
    by_cases hc : ∃c : s.Commanded now e t, c.f.id=i.assignmentId.forward
    · obtain ⟨c,hid⟩ := hc
      refine .direct hr ?_ (hspent.command c hin hid (hid ▸ hrow))
      rw [c.forwards,if_pos hid.symm]
    · have hc' : ∀c : s.Commanded now e t, c.f.id≠i.assignmentId.forward := fun c hid => hc ⟨c,hid⟩
      obtain ⟨b,hrow'⟩ := h.row_kept hrow hc'
      refine .direct hr hrow' ?_
      obtain hd | ⟨hv,p,hp,ho,hg⟩ | hrev := hspent
      · exact .inl hd
      · by_cases hd : row.deleting
        · exact .inl hd
        · have hk : row.spec.slotKey p∈State.specKeys row.spec := List.mem_map_of_mem hp
          have hslot := h.holds hrow hrow' rfl hd hv hk ho hc'
          refine .inr (.inl ⟨hv,p,hp,?_,?_⟩)
          · rw [hslot]
            exact ho
          · rw [hslot]
            exact hg
      · exact .inr (.inr hrev)

theorem Spent.not_reserves (ht : Deployed t) (h : Acts s now e t)
    (hi : Spent s i) : ¬Reserves s t k i := by
  intro hres
  cases hres with
  | @relay id g d node a hnone hd hn ha _ he =>
    subst he
    obtain ⟨-,hg,-,hname,hrole,-⟩ := (ht.formed id g d hd).assignment node hn a ha
    cases hi with
    | direct hr =>
      change a.assignmentId.role=_ at hr
      rw [hname] at hr
      exact hrole hr
    | relay _ hd₀ =>
      change s.deployments.lookup (a.assignmentId.forward,a.deploymentGeneration)=_ at hd₀
      rw [hname,hg,hnone] at hd₀
      cases hd₀
  | @direct id row p hrow hv hp hk ho hf he =>
    subst he
    cases hi with
    | relay hr => exact hr rfl
    | @direct old _ hold hspent =>
      change s.forwards.lookup id=some old at hold
      have hchanged : t.slot k≠s.slot k := by
        intro hsame
        rw [hsame] at hf
        exact lt_irrefl _ hf
      cases h.books with
      | freed hfreed =>
        obtain hsame | ⟨id',keep,-,-,-,hfree⟩ := hfreed k
        · exact hchanged hsame
        · rw [hfree] at ho
          cases ho
      | @refresh id' r actor u hr hvia a hsl _ hfor =>
        obtain ⟨keys,gen,-,hslot⟩ := a.takes (s := s) (t := t) rfl hsl
        have hk' := hslot k
        split_ifs at hk' with hm
        · rw [hk'] at ho
          have hid : id'=id := Option.some.inj ho
          rw [hfor,← hid,hr] at hrow
          cases hrow
          exact hvia hv
        · exact hchanged hk'
      | command c =>
        have hid : c.f.id=id := by
          obtain ⟨keys,gen,-,hslot⟩ := c.takes
          have hk' := hslot k
          split_ifs at hk' with hm
          · rw [hk'] at ho
            exact Option.some.inj ho
          · exact absurd hk' hchanged
        rw [c.forwards,if_pos hid.symm] at hrow
        cases hrow
        obtain ⟨hdel,hrev⟩ := c.revision_le (hid ▸ hold)
        have hspec := c.spec
        have hnd := (Spec.valid_protocols c.valid).1
        have hslots := c.slots
        have hr := c.reserving
        generalize c.reserved=reserved at hslots hr
        cases hr with
        | keep =>
          refine hchanged ?_
          rw [State.slot_congr hslots]
          rfl
        | reserve hnone =>
          rw [hid,hold] at hnone
          cases hnone
        | @transition old' _ hold' _ hres =>
          rw [hid,hold] at hold'
          cases hold'
          have hslot := (State.transition_spec hnd hres).2 k
          have hmem : k∈State.specKeys c.f.spec := by
            rw [← hk,← hspec]
            exact List.mem_map_of_mem hp
          rw [← State.slot_congr hslots,if_pos hmem] at hslot
          have hlt := hspent.lt_next (s.slot k).generation hdel hrev
          change (t.slot k).generation<State.nextGeneration c.f.revision _
            (s.ownedGenerations old.spec.nodeId id) at hlt
          rw [hslot,← hid] at hlt
          exact lt_irrefl _ hlt
        | plan hv' => exact hv' (hspec ▸ hv)

theorem Reserves.clock_iff (c : Nat) : Reserves { s with clock := c } t k i ↔ Reserves s t k i := by
  constructor
  · intro h
    cases h with
    | direct hrow hv hp hk ho hf hi => exact .direct hrow hv hp hk ho hf hi
    | relay hs hd hn ha hk hi => exact .relay hs hd hn ha hk hi
  · intro h
    cases h with
    | direct hrow hv hp hk ho hf hi => exact .direct hrow hv hp hk ho hf hi
    | relay hs hd hn ha hk hi => exact .relay hs hd hn ha hk hi

theorem Spent.clock (c : Nat) (h : Spent s i) : Spent { s with clock := c } i := by
  cases h with
  | direct hr hrow h => exact .direct hr hrow h
  | relay hr hd => exact .relay hr hd

theorem Spent.step {e : Nat×Event} (hs : s.ValidSpecs) (h : InStep s e t) (hi : Spent s i) :
    Spent t i := by
  have hacts := step_acts hs h.1
  exact Spent.acts (s := { s with clock := e.1 }) hs hacts h.2 (hi.clock e.1)

theorem run_spent {l : List (Nat×Event)} (hs : Deployed s) (h : Run InStep s l t)
    (hi : Spent s i) : Deployed t ∧ Spent t i := by
  refine h.invariant (fun u => Deployed u ∧ Spent u i) ?_ ⟨hs,hi⟩
  rintro a e b hab ⟨ha,hia⟩
  exact ⟨ha.step hab.1,hia.step ha.specs hab⟩

/-- Reservations in a run in which no intent turns from direct to Relay while one of its slots has a
generation above its revision. A fence changes only by a reservation and grows with each one, and
an identity of Assignment, generation and fence on a Node is given to one reservation only. -/
theorem reservation_identity_unique {w : World} {l m : List (Nat×Event)} {e e' : Nat×Event}
    {a b c d : State} (hl : Run InStep (State.initial w) l a) (he : InStep a e b)
    (hm : Run InStep b m c) (he' : InStep c e' d) :
    (∀k, (d.slot k).fence=(c.slot k).fence ∨ ∃i, Reserves c d k i) ∧
    (∀k i, Reserves c d k i→(c.slot k).fence<(d.slot k).fence ∧ i.fence=(d.slot k).fence ∧
      i.node=k.node) ∧
    (∀k k' i, Reserves c d k i→Reserves c d k' i→k=k') ∧
    ∀k k' i, Reserves a b k i→¬Reserves c d k' i := by
  have ha : Deployed a := run_deployed (hl.mono fun _ _ _ h => h.1)
  have hb : Deployed b := ha.step he.1
  have hc : Deployed c := hm.invariant Deployed (fun _ _ _ hab h => h.step hab.1) hb
  have hd : Deployed d := hc.step he'.1
  have hacts := step_acts hc.specs he'.1
  refine ⟨?_,?_,?_,?_⟩
  · intro k
    obtain hk | ⟨i,hi⟩ := Acts.reserves (s := { c with clock := e'.1 }) hc.specs hacts k
    · exact .inl hk
    · exact .inr ⟨i,(Reserves.clock_iff e'.1).mp hi⟩
  · intro k i hi
    exact Acts.reserves_fence (s := { c with clock := e'.1 }) hc.specs hacts
      ((Reserves.clock_iff e'.1).mpr hi)
  · intro k k' i hi hi'
    exact Reserves.slot_unique hd hi hi'
  · intro k k' i hi hi'
    obtain ⟨-,hspent⟩ := run_spent hb hm (hi.spent hb)
    exact (hspent.clock e'.1).not_reserves hd hacts ((Reserves.clock_iff e'.1).mpr hi')

def directSpec (port : Nat) : Spec := ⟨true,[.tcp],0,0,port,⟨9,80⟩,[],none⟩

/-- Forward 1 takes a port of Node 0 for a direct intent, at a generation and a fence. -/
def takesPort (s t : State) (port generation fence : Nat) : Bool :=
  decide ((t.forwards.lookup 1).map (·.spec)=some (directSpec port)) &&
    decide (t.slot ⟨0,.tcp,port⟩=⟨some 1,fence,generation⟩) &&
    decide ((s.slot ⟨0,.tcp,port⟩).fence<fence)

theorem takesPort_reserves {port generation fence : Nat} (h : takesPort s t port generation fence) :
    Reserves s t ⟨0,.tcp,port⟩ ⟨0,⟨0,1,.tcp,.direct⟩,generation,fence⟩ := by
  simp only [takesPort,bool_ok,Option.map_eq_some_iff] at h
  obtain ⟨⟨⟨row,hrow,hspec⟩,hslot⟩,hfence⟩ := h
  refine .direct (p := .tcp) hrow ?_ ?_ ?_ ?_ ?_ ?_
  · rw [hspec]
    rfl
  · rw [hspec]
    exact List.mem_singleton.mpr rfl
  · rw [hspec]
    rfl
  · rw [hslot]
  · rw [hslot]
    exact hfence
  · rw [hslot]

def performsIn (s : State) (l : List (Nat×Event)) : Option State :=
  l.foldlM (fun s e => if switchesInStep s e.2 then perform s e else none) s

theorem run_performsIn {l : List (Nat×Event)} (h : performsIn s l=some t) : Run InStep s l t := by
  apply Run.of_foldlM _ h
  intro a e b hb
  split_ifs at hb with hs
  exact ⟨perform_some hb,hs⟩

def startRun : List (Nat×Event) :=
  [(0,.provision 0),(0,.provision 1),(0,.hello 0 1 fullCapabilities 0),
    (0,.hello 1 1 fullCapabilities 0)]

/-- A Forward is created as direct, becomes a Relay and then direct again, on one port. -/
theorem reservation_identity_unique_return : ∃a b c d,
    Run InStep (State.initial openWorld) startRun a ∧
      InStep a (1,.create 7 0 1 (directSpec 100)) b ∧
      Run InStep b [(2,.update 7 1 1 (relaySpec true))] c ∧
      InStep c (3,.update 7 1 2 (directSpec 100)) d ∧
      Reserves a b ⟨0,.tcp,100⟩ ⟨0,⟨0,1,.tcp,.direct⟩,1,1⟩ ∧
      Reserves c d ⟨0,.tcp,100⟩ ⟨0,⟨0,1,.tcp,.direct⟩,3,3⟩ ∧
      ¬Reserves c d ⟨0,.tcp,100⟩ ⟨0,⟨0,1,.tcp,.direct⟩,1,1⟩ := by
  have hrun : ((performsIn (State.initial openWorld) startRun).bind fun a =>
      (performsIn a [(1,.create 7 0 1 (directSpec 100))]).bind fun b =>
      (performsIn b [(2,.update 7 1 1 (relaySpec true))]).bind fun c =>
      (performsIn c [(3,.update 7 1 2 (directSpec 100))]).map fun d =>
        (takesPort a b 100 1 1,takesPort c d 100 3 3))=some (true,true) := by
    decide +kernel
  simp only [do_some] at hrun
  obtain ⟨a,ha,b,hb,c,hc,d,hd,hfirst,hsecond⟩ := hrun
  have hl := run_performsIn ha
  obtain ⟨b',he,hnil⟩ := (run_performsIn hb).cons_inv
  obtain rfl := hnil.nil_inv
  have hm := run_performsIn hc
  obtain ⟨d',he',hnil'⟩ := (run_performsIn hd).cons_inv
  obtain rfl := hnil'.nil_inv
  have hfirst := takesPort_reserves hfirst
  exact ⟨a,b,c,d,hl,he,hm,he',hfirst,takesPort_reserves hsecond,
    (reservation_identity_unique hl he hm he').2.2.2 _ _ _ hfirst⟩

def portsWorld : World := { openWorld with
  facts := fun _ => ⟨0,[0],[100,150,200],⟨1,[1],false⟩,fun _ => true⟩ }

/-- A report of one Relay assignment of generation 2. -/
def relayReport (n : NodeId) (role : Role) (sequence accepted : Nat) (phase : Phase)
    (c : Condition) : Report where
  nodeId := n
  bootId := 1
  sessionEpoch := 1
  reportSequence := sequence
  observedAt := 0
  acceptedSnapshotGeneration := accepted
  observations := [⟨⟨n,1,.tcp,role⟩,2,1,some phase,c,none,false⟩]
  drains := []

/-- Forward 2 leaves port 200 behind at fence 2; Forward 1 holds port 100 at fence 2. -/
def beforeRun : List (Nat×Event) :=
  startRun++[(1,.create 7 0 2 (directSpec 200)),(2,.reauthorize 2 true false),(3,.remove 7 2 1),
    (4,.claim 2 1),(5,.issue 0 false none none),(6,.complete 0),
    (7,.create 7 0 1 (directSpec 100)),(8,.reauthorize 1 true false)]

/-- Forward 1 becomes a Relay, which is activated and releases port 100. -/
def switchingRun : List (Nat×Event) :=
  [(10,.update 7 1 1 { relaySpec true with port := 150 }),(11,.claim 6 1),
    (12,.issue 0 false none none),(12,.issue 1 false none none),
    (13,.report 0 (relayReport 0 .relayIngress 1 2 .prepared .prepared)),
    (13,.report 1 (relayReport 1 .relayEgress 1 1 .prepared .prepared)),
    (14,.advance 1),(15,.issue 1 false none none),
    (16,.report 1 (relayReport 1 .relayEgress 2 2 .active .ready)),
    (17,.advance 1),(18,.issue 0 false none none),
    (19,.report 0 (relayReport 0 .relayIngress 2 3 .active .ready)),(20,.advance 1)]

/-- Port 100 and later port 200 are reserved under one identity. -/
theorem reservation_identity_reused : ∃a b c d,
    Run Step (State.initial portsWorld) beforeRun a ∧ Step a (9,.reauthorize 1 true false) b ∧
      Run Step b switchingRun c ∧ Step c (21,.update 7 1 2 (directSpec 200)) d ∧
      Reserves a b ⟨0,.tcp,100⟩ ⟨0,⟨0,1,.tcp,.direct⟩,3,3⟩ ∧
      Reserves c d ⟨0,.tcp,200⟩ ⟨0,⟨0,1,.tcp,.direct⟩,3,3⟩ := by
  have hrun : ((performs (State.initial portsWorld) beforeRun).bind fun a =>
      (perform a (9,.reauthorize 1 true false)).bind fun b =>
      (performs b switchingRun).bind fun c =>
      (perform c (21,.update 7 1 2 (directSpec 200))).map fun d =>
        (takesPort a b 100 3 3,takesPort c d 200 3 3))=some (true,true) := by
    decide +kernel
  simp only [do_some] at hrun
  obtain ⟨a,ha,b,hb,c,hc,d,hd,hfirst,hsecond⟩ := hrun
  exact ⟨a,b,c,d,run_performs ha,perform_some hb,run_performs hc,perform_some hd,
    takesPort_reserves hfirst,takesPort_reserves hsecond⟩

end TuneX.Control
