import TuneX.Control.Reservations

namespace TuneX.Control

open Framework

variable {s t u : State} {f : Forward} {now g : Nat} {n : NodeId} {e : Event}

/-- A move of a status other than the start by a claim. -/
def Status.settles (a b : Status) : Bool :=
  a=b || ((a=.accepted || a=.running) && (b=.failed || b=.superseded)) || (a=.running && b=.succeeded)

def Status.moves (a b : Status) : Bool := a.settles b || (a=.accepted && b=.running)

variable {a b : Status} {q op : Operation} {kind : Kind} {row : ForwardRow} {d : Deployment}
  {l : List (Nat×Event)} {claim : Claim} {credential : Option Nat}

theorem Status.settles_trans {c : Status} (h : a.settles b) (h' : b.settles c) : a.settles c := by
  revert h h'
  cases a <;> cases b <;> cases c <;> decide

theorem Status.settles_trans_moves {c : Status} (h : a.settles b) (h' : b.moves c) : a.moves c := by
  revert h h'
  cases a <;> cases b <;> cases c <;> decide

theorem Status.settles_moves (h : a.settles b) : a.moves b := by
  simp [Status.moves,h]

def Status.ended (a : Status) : Bool := a=.succeeded || a=.failed || a=.superseded

theorem Status.moves_ended (h : a.moves b) (ha : a.ended) : b=a := by
  revert h ha
  cases a <;> cases b <;> decide

theorem Status.moves_current (h : a.moves b) (hb : b=.accepted ∨ b=.running) :
    a=.accepted ∨ a=.running := by
  revert h hb
  cases a <;> cases b <;> decide

/-- An Operation keeps its identity; its status moves by a given relation. -/
structure Evolves (R : Status→Status→Bool) (o p : Operation) : Prop where
  id : p.id=o.id
  forwardId : p.forwardId=o.forwardId
  targetRevision : p.targetRevision=o.targetRevision
  createdAt : p.createdAt=o.createdAt
  status : R o.status p.status

theorem Evolves.trans {o p : Operation} (h : Evolves Status.settles o p)
    (h' : Evolves Status.settles p q) : Evolves Status.settles o q :=
  ⟨h'.id.trans h.id,h'.forwardId.trans h.forwardId,h'.targetRevision.trans h.targetRevision,
    h'.createdAt.trans h.createdAt,Status.settles_trans h.status h'.status⟩

theorem Evolves.trans_moves {o p : Operation} (h : Evolves Status.settles o p)
    (h' : Evolves Status.moves p q) : Evolves Status.moves o q :=
  ⟨h'.id.trans h.id,h'.forwardId.trans h.forwardId,h'.targetRevision.trans h.targetRevision,
    h'.createdAt.trans h.createdAt,Status.settles_trans_moves h.status h'.status⟩

variable {o p : Operation}

theorem Evolves.moves (h : Evolves Status.settles o p) : Evolves Status.moves o p :=
  ⟨h.id,h.forwardId,h.targetRevision,h.createdAt,Status.settles_moves h.status⟩

theorem Evolves.current (h : Evolves Status.moves o p) (hp : p.current) : o.current := by
  simp only [Operation.current,Bool.or_eq_true,decide_eq_true_eq] at hp ⊢
  exact Status.moves_current h.status hp

/-- One Operation is older than another of the same Forward and has ended. -/
def Older (o p : Operation) : Prop :=
  o.forwardId=p.forwardId→p.targetRevision≤o.targetRevision ∧ p.createdAt<o.createdAt ∧ ¬p.current

/-- The Operations of the store, newest first: they have different numbers, belong to stored
Forwards, and of each Forward only the newest may be accepted or running. -/
structure Queue (s : State) : Prop where
  bounded : ∀o∈s.operations, o.id<s.operations.length
  ids : (s.operations.map (·.id)).Nodup
  rows : ∀o∈s.operations, ∃row, s.forwards.lookup o.forwardId=some row ∧
    o.targetRevision ≤ row.revision
  ordered : s.operations.Pairwise Older

theorem Queue.initial (w : World) : Queue (State.initial w) := by
  refine ⟨?_,?_,?_,?_⟩
  · simp [State.initial]
  · simp [State.initial]
  · simp [State.initial]
  · exact List.Pairwise.nil

theorem Queue.same (hs : Queue s) (ho : o∈s.operations) (hp : p∈s.operations)
    (h : o.id=p.id) : o=p :=
  List.inj_on_of_nodup_map hs.ids ho hp h

theorem Queue.compare (hs : Queue s) (ho : o∈s.operations) (hp : p∈s.operations) :
    o=p ∨ Older o p ∨ Older p o := by
  have hsymm : Std.Symm fun a b => a=b ∨ Older a b ∨ Older b a := by
    refine ⟨?_⟩
    rintro a b (h | h | h)
    · exact .inl h.symm
    · exact .inr (.inr h)
    · exact .inr (.inl h)
  have hall : s.operations.Pairwise fun a b => a=b ∨ Older a b ∨ Older b a :=
    hs.ordered.imp fun h => .inr (.inl h)
  exact hall.forall_of_forall (fun a _ => .inl rfl) ho hp

variable {id : ForwardId}

theorem Queue.latest (hs : Queue s) (h : s.latest id=some op) :
    op∈s.operations ∧ op.forwardId=id ∧ ∀p∈s.operations, p.forwardId=id→p=op ∨ Older op p := by
  have hmem := first_mem h
  simp only [List.mem_filter,decide_eq_true_eq] at hmem
  refine ⟨hmem.1,hmem.2,?_⟩
  intro p hp hpid
  have hin : p∈s.operations.filter fun o => o.forwardId=id := by simp [hp,hpid]
  have hbefore := first_before (fun a b c hab hbc => by
      simp only [Operation.latestFirst,Bool.or_eq_true,bool_ok] at *
      omega) (fun a b => by
      simp only [Operation.latestFirst,Bool.or_eq_true,bool_ok]
      omega) h p hin
  simp only [Operation.latestFirst,Bool.or_eq_true,bool_ok] at hbefore
  obtain he | ho | ho := hs.compare hmem.1 hp
  · exact .inl he.symm
  · exact .inr ho
  · have := ho (hpid.trans hmem.2.symm)
    omega

/-- What a part of an event does to the Operations: each stays with its status moved, and the
others are new. -/
structure Worked (R : Status→Status→Bool) (s t : State) : Prop where
  kept : ∀o∈s.operations, ∃p∈t.operations, Evolves R o p
  born : ∀p∈t.operations, (∃o∈s.operations, Evolves R o p) ∨
    (s.operations.length≤p.id ∧ Status.settles .accepted p.status)
  length : s.operations.length≤t.operations.length

theorem Worked.trans (h : Worked Status.settles s t) (h' : Worked Status.settles t u) :
    Worked Status.settles s u := by
  refine ⟨?_,?_,h.length.trans h'.length⟩
  · intro o ho
    obtain ⟨p,hp,hop⟩ := h.kept o ho
    obtain ⟨q,hq,hpq⟩ := h'.kept p hp
    exact ⟨q,hq,hop.trans hpq⟩
  · intro q hq
    obtain ⟨p,hp,hpq⟩ | ⟨hlen,hst⟩ := h'.born q hq
    · obtain ⟨o,ho,hop⟩ | ⟨hlen,hst⟩ := h.born p hp
      · exact .inl ⟨o,ho,hop.trans hpq⟩
      · exact .inr ⟨hpq.id ▸ hlen,Status.settles_trans hst hpq.status⟩
    · exact .inr ⟨h.length.trans hlen,hst⟩

theorem Worked.moves (h : Worked Status.settles s t) : Worked Status.moves s t := by
  refine ⟨?_,?_,h.length⟩
  · intro o ho
    obtain ⟨p,hp,hop⟩ := h.kept o ho
    exact ⟨p,hp,hop.moves⟩
  · intro p hp
    obtain ⟨o,ho,hop⟩ | hnew := h.born p hp
    · exact .inl ⟨o,ho,hop.moves⟩
    · exact .inr hnew

/-- A part of an event that keeps the order of the Operations. -/
def Sound (s t : State) : Prop := Queue s→Queue t ∧ Worked Status.settles s t

theorem Sound.trans (h : Sound s t) (h' : Sound t u) : Sound s u := by
  intro hs
  obtain ⟨ht,hw⟩ := h hs
  obtain ⟨hu,hw'⟩ := h' ht
  exact ⟨hu,hw.trans hw'⟩

/-- Rows of Forwards are not lost and their revisions do not fall. -/
def Grown (s t : State) : Prop :=
  ∀id row, s.forwards.lookup id=some row→∃row', t.forwards.lookup id=some row' ∧
    row.revision ≤ row'.revision

theorem Grown.of_eq (h : t.forwards=s.forwards) : Grown s t := by
  intro id row hrow
  exact ⟨row,by rw [h]; exact hrow,le_rfl⟩

variable {c : Operation→Operation}

theorem Queue.update {R : Status→Status→Bool} (hR : ∀a b, R a b→a.moves b) (hs : Queue s)
    (hf : Grown s t) (ht : t.operations=s.operations.map c)
    (hc : ∀o∈s.operations, Evolves R o (c o)) : Queue t ∧ Worked R s t := by
  refine ⟨⟨?_,?_,?_,?_⟩,?_,?_,?_⟩
  · intro p hp
    rw [ht] at hp
    obtain ⟨o,ho,rfl⟩ := List.mem_map.mp hp
    rw [ht,List.length_map,(hc o ho).id]
    exact hs.bounded o ho
  · have hids : t.operations.map (·.id)=s.operations.map (·.id) := by
      rw [ht,List.map_map]
      exact List.map_congr_left fun o ho => (hc o ho).id
    rw [hids]
    exact hs.ids
  · intro p hp
    rw [ht] at hp
    obtain ⟨o,ho,rfl⟩ := List.mem_map.mp hp
    obtain ⟨row,hrow,hle⟩ := hs.rows o ho
    obtain ⟨row',hrow',hle'⟩ := hf _ row hrow
    rw [(hc o ho).forwardId,(hc o ho).targetRevision]
    exact ⟨row',hrow',hle.trans hle'⟩
  · rw [ht,List.pairwise_map]
    refine hs.ordered.imp_of_mem ?_
    intro o p ho hp hop hid
    have hco := hc o ho
    have hcp := hc p hp
    obtain ⟨h1,h2,h3⟩ := hop (by rw [← hco.forwardId,hid,hcp.forwardId])
    refine ⟨?_,?_,?_⟩
    · rw [hco.targetRevision,hcp.targetRevision]
      exact h1
    · rw [hco.createdAt,hcp.createdAt]
      exact h2
    · intro hcur
      have hmoves : Evolves Status.moves p (c p) :=
        ⟨hcp.id,hcp.forwardId,hcp.targetRevision,hcp.createdAt,hR _ _ hcp.status⟩
      exact h3 (hmoves.current hcur)
  · intro o ho
    exact ⟨c o,by rw [ht]; exact List.mem_map_of_mem ho,hc o ho⟩
  · intro p hp
    rw [ht] at hp
    obtain ⟨o,ho,rfl⟩ := List.mem_map.mp hp
    exact .inl ⟨o,ho,hc o ho⟩
  · rw [ht,List.length_map]

theorem Sound.update (hf : t.forwards=s.forwards)
    (ht : t.operations=s.operations.map c)
    (hc : Queue s→∀o∈s.operations, Evolves Status.settles o (c o)) : Sound s t := by
  intro hs
  exact hs.update (fun _ _ => Status.settles_moves) (.of_eq hf) ht (hc hs)

theorem Sound.of_eq (hf : t.forwards=s.forwards) (ht : t.operations=s.operations) : Sound s t := by
  refine .update (c := id) hf (by simpa using ht) ?_
  intro _ o _
  exact ⟨rfl,rfl,rfl,rfl,by simp [Status.settles]⟩

theorem Sound.updateOperations {p : Operation→Bool}
    (hf : t.forwards=s.forwards) (ht : t.operations=(s.updateOperations p c).operations)
    (hc : Queue s→∀o∈s.operations, p o→Evolves Status.settles o (c o)) : Sound s t := by
  refine .update hf ht ?_
  intro hs o ho
  split_ifs with hp
  · exact hc hs o ho hp
  · exact ⟨rfl,rfl,rfl,rfl,by simp [Status.settles]⟩

theorem Queue.accept (hs : Queue s) (hf : Grown s t)
    (hrow : ∃row, t.forwards.lookup f.id=some row ∧ f.revision ≤ row.revision)
    (hrev : ∀row, s.forwards.lookup f.id=some row → row.revision≤f.revision)
    (ht : t.operations=(s.accept now f kind).operations) : Queue t ∧ Worked Status.settles s t := by
  let c : Operation→Operation := fun o => if o.forwardId=f.id && o.current then
    { o with status := .superseded, claim := none } else o
  have hc : ∀o∈s.operations, Evolves Status.settles o (c o) := by
    intro o _
    simp only [c]
    split_ifs with ho
    · simp only [bool_ok,Operation.current,Bool.or_eq_true] at ho
      refine ⟨rfl,rfl,rfl,rfl,?_⟩
      simp [Status.settles,ho.2]
    · exact ⟨rfl,rfl,rfl,rfl,by simp [Status.settles]⟩
  obtain ⟨hq,hw⟩ := hs.update (t := { t with operations := s.operations.map c })
    (fun _ _ => Status.settles_moves) hf rfl hc
  have hops : ∃o : Operation, t.operations=o::s.operations.map c ∧ o.id=s.operations.length ∧
      o.forwardId=f.id ∧ o.targetRevision=f.revision ∧ o.status=.accepted ∧
      o.createdAt=max now (((s.latest f.id).map (·.createdAt)).getD 0+1) :=
    ⟨_,ht,rfl,rfl,rfl,rfl,rfl⟩
  obtain ⟨o,hops,hid,hforward,htarget,hstatus,hcreated⟩ := hops
  have holder : ∀p∈s.operations, Older o (c p) := by
    intro p hp hsame
    have hcp := hc p hp
    have hpid : p.forwardId=f.id := by rw [← hcp.forwardId,← hsame,hforward]
    refine ⟨?_,?_,?_⟩
    · obtain ⟨row,hlookup,hle⟩ := hs.rows p hp
      rw [hcp.targetRevision,htarget]
      exact hle.trans (hrev row (hpid ▸ hlookup))
    · rw [hcp.createdAt,hcreated]
      cases hl : s.latest f.id with
      | none =>
        have hnil := first_eq_none.mp hl
        have hin : p∈s.operations.filter fun o => o.forwardId=f.id := by simp [hp,hpid]
        simp [hnil] at hin
      | some op =>
        have hle : p.createdAt≤op.createdAt := by
          obtain ⟨-,hopid,hnewest⟩ := hs.latest hl
          obtain rfl | hold := hnewest p hp hpid
          · exact le_rfl
          · exact (hold (hopid.trans hpid.symm)).2.1.le
        simp only [Option.map_some,Option.getD_some]
        omega
    · simp only [c]
      split_ifs with hcur
      · simp [Operation.current]
      · intro hp'
        simp [hpid,hp'] at hcur
  refine ⟨⟨?_,?_,?_,?_⟩,?_,?_,?_⟩
  · intro p hp
    rw [hops] at hp ⊢
    rw [List.length_cons,List.length_map]
    cases List.mem_cons.mp hp with
    | inl he =>
      rw [he,hid]
      exact Nat.lt_succ_self _
    | inr hm =>
      have := hq.bounded p hm
      rw [List.length_map] at this
      omega
  · rw [hops,List.map_cons,List.nodup_cons]
    refine ⟨?_,hq.ids⟩
    intro hm
    obtain ⟨p,hp,hpid⟩ := List.mem_map.mp hm
    have := hq.bounded p hp
    rw [List.length_map] at this
    omega
  · intro p hp
    rw [hops] at hp
    cases List.mem_cons.mp hp with
    | inl he =>
      rw [he,hforward,htarget]
      exact hrow
    | inr hm => exact hq.rows p hm
  · rw [hops,List.pairwise_cons]
    refine ⟨?_,hq.ordered⟩
    intro p hp
    obtain ⟨q,hq',rfl⟩ := List.mem_map.mp hp
    exact holder q hq'
  · intro p hp
    refine ⟨c p,?_,hc p hp⟩
    rw [hops]
    exact List.mem_cons_of_mem _ (List.mem_map_of_mem hp)
  · intro p hp
    rw [hops] at hp
    cases List.mem_cons.mp hp with
    | inl he =>
      refine .inr ⟨?_,?_⟩
      · rw [he,hid]
      · rw [he,hstatus]
        rfl
    | inr hm => exact hw.born p hm
  · rw [hops,List.length_cons,List.length_map]
    exact Nat.le_succ _

theorem Sound.accept (hrow : s.forwards.lookup id=some row) (hf : t.forwards=s.forwards)
    (ht : t.operations=(s.accept now (row.forward id) kind).operations) : Sound s t := by
  intro hs
  refine hs.accept (.of_eq hf) ⟨row,hf ▸ hrow,le_rfl⟩ ?_ ht
  intro row' hrow'
  change s.forwards.lookup id=_ at hrow'
  rw [hrow] at hrow'
  cases hrow'
  exact le_rfl

theorem denyIntent_sound (id : Nat) : Sound s (s.denyIntent id) := by
  refine .updateOperations rfl rfl ?_
  intro _ o _ ho
  simp only [bool_ok] at ho
  exact ⟨rfl,rfl,rfl,rfl,by simp [Status.settles,ho.2]⟩

theorem expire_sound : Sound s (s.expire now) := by
  refine .updateOperations rfl rfl ?_
  intro _ o _ ho
  simp only [Operation.current,bool_ok,Bool.or_eq_true] at ho
  exact ⟨rfl,rfl,rfl,rfl,by simp [Status.settles,ho.1.2]⟩

theorem settleOperation_sound (op : Operation) (b : Bool) : Sound s (s.settleOperation op b) := by
  have hfirst : Sound s (s.updateOperations (fun o => o.id=op.id) fun o =>
      { o with
        status := if o.status=.running then .succeeded else o.status
        cleanupPending := false
        claim := if b then none else o.claim }) := by
    refine .updateOperations rfl rfl ?_
    intro _ o _ _
    refine ⟨rfl,rfl,rfl,rfl,?_⟩
    dsimp only
    split_ifs with hr
    · simp [Status.settles,hr]
    · simp [Status.settles]
  refine hfirst.trans (.updateOperations rfl rfl ?_)
  intro _ o _ _
  exact ⟨rfl,rfl,rfl,rfl,by simp [Status.settles]⟩

theorem completeOperation_sound (o : Option (Report×Snapshot)) (op : Operation) :
    Sound s (State.completeOperation now n o s op) := by
  unfold State.completeOperation
  cases s.forwards.lookup op.forwardId with
  | none => exact .of_eq rfl rfl
  | some row =>
    dsimp only
    have hsettle : ∀(v : State) (b : Bool), v.forwards=s.forwards→v.operations=s.operations→
        Sound s (v.settleOperation op b) := by
      intro v b hf ho
      exact (Sound.of_eq hf ho).trans (settleOperation_sound op b)
    split_ifs
    · exact .of_eq rfl rfl
    · exact hsettle _ _ rfl rfl
    · exact hsettle _ _ rfl rfl
    · refine .updateOperations rfl rfl ?_
      intro _ o _ _
      exact ⟨rfl,rfl,rfl,rfl,by simp [Status.settles]⟩
    · cases o with
      | none => exact .of_eq rfl rfl
      | some rp =>
        dsimp only
        split_ifs
        · exact hsettle _ _ rfl rfl
        · exact .of_eq rfl rfl

theorem complete_sound (o : Option (Report×Snapshot)) : Sound s (s.complete now n o) := by
  unfold State.complete
  refine List.foldlRecOn _ (State.completeOperation now n o) (b := s.settleRetirements now n)
    (motive := Sound s) (.of_eq rfl rfl) ?_
  intro b hb op _
  exact hb.trans (completeOperation_sound o op)

theorem settleRelay_sound (row : ForwardRow) (op : Operation) (b : Bool) :
    Sound s (s.settleRelay now row op b) := by
  unfold State.settleRelay
  dsimp only
  have hclean : ∀v : State, Sound v (v.updateOperations (fun o => o.forwardId=op.forwardId &&
      (o.status=.succeeded || o.status=.failed || o.status=.superseded))
      fun o => { o with cleanupPending := false }) := by
    intro v
    refine .updateOperations rfl rfl ?_
    intro _ o _ _
    exact ⟨rfl,rfl,rfl,rfl,by simp [Status.settles]⟩
  have hfinish : Sound s (s.updateOperations (fun o => o.id=op.id && o.status=.running &&
      now<o.executionDeadline) fun o =>
        { o with status := .succeeded, cleanupPending := false, claim := none }) := by
    refine .updateOperations rfl rfl ?_
    intro _ o _ ho
    simp only [bool_ok] at ho
    exact ⟨rfl,rfl,rfl,rfl,by simp [Status.settles,ho.1.2]⟩
  split_ifs
  · exact hfinish.trans (hclean _)
  · exact hclean s
  · exact hfinish
  · exact .of_eq rfl rfl

theorem completeRelay_sound (row : ForwardRow) (op : Operation) (d : Deployment) :
    Sound s (s.completeRelay now f row op d) := by
  have hsettle : ∀(v : State) (b : Bool), v.forwards=s.forwards→v.operations=s.operations→
      Sound s (v.settleRelay now row op b) := by
    intro v b hf ho
    exact (Sound.of_eq hf ho).trans (settleRelay_sound row op b)
  unfold State.completeRelay
  split_ifs
  · exact .of_eq rfl rfl
  · exact .of_eq rfl rfl
  · exact hsettle _ _ rfl rfl
  · exact hsettle _ _ rfl rfl
  · exact hsettle _ _ rfl rfl
  · exact .of_eq rfl rfl

theorem Turn.sound (hrow : s.forwards.lookup id=some row)
    (h : State.Turn s now (row.forward id) row op g d t) : Sound s t := by
  cases h with
  | direct => exact .of_eq rfl rfl
  | refresh _ _ ht =>
    obtain ⟨u,hu,rfl⟩ := State.refresh_ok ht
    have hframe := State.acceptPlan_frame hu
    refine .accept hrow ?_ (State.accept_operations .policy ?_)
    · rw [State.accept_frame,hframe]
    · rw [hframe]
  | withdraw =>
    unfold State.withdraw
    exact Sound.trans (t := s.setDeployment id g { d with stage := .withdrawn }) (.of_eq rfl rfl)
      (completeRelay_sound row op _)
  | progress =>
    unfold State.progress
    dsimp only
    have hset : Sound s (s.setDeployment id g (s.nextDeployment now d)) := .of_eq rfl rfl
    split_ifs
    · exact hset.trans (completeRelay_sound row op _)
    · exact hset

theorem failDeployment_sound (hrow : s.forwards.lookup id=some row) (hop : op∈s.operations)
    (hst : op.status=.running ∨ op.status=.succeeded) :
    Sound s (s.failDeployment now (row.forward id) op g d) := by
  unfold State.failDeployment
  dsimp only
  by_cases hsucc : op.status=.succeeded
  · rw [if_pos hsucc,if_pos hsucc]
    have hnew : Sound s (s.accept now (row.forward id) .policy) := .accept hrow rfl rfl
    intro hs
    refine hnew.trans (Sound.updateOperations (p := fun o => o.id=s.operations.length)
      (c := fun o => { o with status := .failed, cleanupPending := true, claim := none }) rfl rfl ?_) hs
    intro _ o ho hid
    refine ⟨rfl,rfl,rfl,rfl,?_⟩
    -- Only the new Operation has this number.
    have hnumber : o.id=s.operations.length := by simpa using hid
    cases List.mem_cons.mp ho with
    | inl he =>
      rw [he]
      rfl
    | inr hm =>
      obtain ⟨p,hp,rfl⟩ := List.mem_map.mp hm
      have hlt := hs.bounded p hp
      have hpid : p.id=s.operations.length := by
        split_ifs at hnumber
        · exact hnumber
        · exact hnumber
      omega
  · rw [if_neg hsucc,if_neg hsucc]
    refine .updateOperations rfl rfl ?_
    intro hs o ho hid
    have he : o=op := hs.same ho hop (by simpa using hid)
    refine ⟨rfl,rfl,rfl,rfl,?_⟩
    rw [he]
    simp [Status.settles,hst.resolve_right hsucc]

theorem reportErrors_sound (p : Snapshot) (r : Report) (l : List Assignment) :
    Sound s (l.foldl (State.reportError now p r) s) := by
  refine List.foldlRecOn _ (State.reportError now p r) (b := s) (motive := Sound s) (.of_eq rfl rfl) ?_
  intro b hb a _
  refine hb.trans ?_
  unfold State.reportError
  cases r.observations.find? fun o => o.assignmentId=a.assignmentId with
  | none => exact .of_eq rfl rfl
  | some o =>
    dsimp only
    split_ifs
    · exact .of_eq rfl rfl
    · obtain he | ⟨g,d,op,row,-,hop,hrow,happ,he⟩ := State.executionError_cases b now p a o
      · rw [he]
        exact .of_eq rfl rfl
      · rw [he]
        intro hq
        refine failDeployment_sound hrow (hq.latest hop).1 ?_ hq
        simp only [State.errorApplies,bool_ok,Bool.or_eq_true] at happ
        exact happ.1.1.1.1.2
    · exact .of_eq rfl rfl
    · refine .updateOperations rfl rfl ?_
      intro _ o _ ho
      simp only [bool_ok] at ho
      exact ⟨rfl,rfl,rfl,rfl,by simp [Status.settles,ho.2]⟩

theorem State.Taken.sound {r : Report} (h : State.Taken s now n r t) : Sound s t := by
  obtain ⟨row,drained,failed,-,-,hd,hf,hr⟩ := h
  have hdrain := State.observeDrains_frame hd
  have hstore : Sound s (drained.storeReport now n row r) := by
    refine .of_eq ?_ ?_
    · unfold State.storeReport
      rw [hdrain]
    · unfold State.storeReport
      rw [hdrain]
  have hfail : Sound s failed := by
    obtain rfl | ⟨p,rfl⟩ := hf
    · exact hstore
    · exact hstore.trans (reportErrors_sound p r _)
  obtain rfl | ⟨p,-,-,-,rfl⟩ := hr
  · exact hfail
  · exact hfail.trans (complete_sound _)

variable {next : List Assignment}

theorem retireChanged_sound {previous : Option Snapshot}
    (h : s.retireChanged n previous next g=.ok t) : Sound s t := by
  refine foldlM_ok (Sound s) ?_ (.of_eq rfl rfl) h
  intro b a c _ hb hc
  refine hb.trans ?_
  unfold State.retireOne at hc
  split_ifs at hc
  · cases hc
    exact .of_eq rfl rfl
  · cases ho : b.latest a.forwardId with
    | none => simp [ho] at hc
    | some op =>
      simp only [ho,Except.ok.injEq] at hc
      rw [← hc]
      have hretire : Sound b (b.retire (a.instanceOn n) ⟨a.forwardId,a,none,g,false⟩) := by
        unfold State.retire
        split_ifs
        · exact .of_eq rfl rfl
        · exact .of_eq rfl rfl
      refine hretire.trans (.updateOperations rfl rfl ?_)
      intro _ o _ _
      exact ⟨rfl,rfl,rfl,rfl,by simp [Status.settles]⟩

theorem State.Issued.operations {row : RuntimeNode}
    (i : State.Issued s now n row next t) :
    t.operations=i.retired.operations ∧ t.forwards=i.retired.forwards := by
  have ho := congrArg State.operations i.result
  have hf := congrArg State.forwards i.result
  rw [State.recordLeases_frame] at ho hf
  exact ⟨ho,hf⟩

theorem State.Issued.sound {row : RuntimeNode}
    (i : State.Issued s now n row next t) : Sound s t :=
  (retireChanged_sound i.retired_eq).trans (.of_eq i.operations.2 i.operations.1)

theorem State.Commanded.sound (c : s.Commanded now e t) : Sound s t := by
  have hgrown : Grown s t := by
    intro id row hrow
    rw [c.forwards]
    split_ifs with hid
    · subst hid
      exact ⟨c.row,rfl,(c.revision_le hrow).2.trans c.revision.ge⟩
    · exact ⟨row,hrow,le_rfl⟩
  have hrow : ∃row, t.forwards.lookup c.f.id=some row ∧ c.f.revision ≤ row.revision :=
    ⟨c.row,c.row_eq,c.revision.ge⟩
  have haccept : ∀v : State, v.forwards=t.forwards→
      v.operations=(s.accept now c.f c.kind).operations→Sound s v := by
    intro v hf ho hs
    exact hs.accept (fun id row h => by rw [hf]; exact hgrown id row h) (hf ▸ hrow)
      (fun row h => (c.revision_le h).2) ho
  obtain ho | ⟨-,ho⟩ := c.operations
  · exact haccept t rfl ho
  · let v : State := { t with operations := (s.accept now c.f c.kind).operations }
    have hdeny : Sound v t := by
      refine Sound.trans (denyIntent_sound s.operations.length) (.of_eq rfl ?_)
      exact ho
    exact (haccept v rfl rfl).trans hdeny

theorem claim_worked {id token : Nat} (hs : Queue s) (h : s.claim now id token=.ok t) :
    Queue t ∧ Worked Status.moves s t := by
  simp only [State.claim,do_ok,not_not,List.any_eq_true,bool_ok] at h
  obtain ⟨⟨q,hq,hqid,hclaim⟩,rfl⟩ := h
  have hexpire : Sound s (s.expire now) := expire_sound
  obtain ⟨hexp,-⟩ := hexpire hs
  let expired : Operation→Operation := fun o =>
    if !o.recoveryInvalidated && o.current && o.executionDeadline≤now then
      { o with status := .failed, cleanupPending := true, claim := none } else o
  let started : Operation→Operation := fun o =>
    if o.id=id then { o with status := .running, claim := some ⟨token,now+15000⟩ } else o
  have hops : ((s.expire now).updateOperations (fun o => o.id=id) fun o =>
      { o with status := .running, claim := some ⟨token,now+15000⟩ }).operations=
      s.operations.map (started∘expired) := by
    rw [← List.map_map]
    change (s.expire now).operations.map _=(s.expire now).operations.map started
    refine List.map_congr_left fun o _ => ?_
    simp [started]
  refine hs.update (fun _ _ h => h) (.of_eq rfl) hops ?_
  intro o ho
  have hfirst : Evolves Status.settles o (expired o) := by
    simp only [expired]
    split_ifs with hx
    · simp only [Operation.current,bool_ok,Bool.or_eq_true] at hx
      exact ⟨rfl,rfl,rfl,rfl,by simp [Status.settles,hx.1.2]⟩
    · exact ⟨rfl,rfl,rfl,rfl,by simp [Status.settles]⟩
  refine hfirst.trans_moves ?_
  have hmem : expired o∈(s.expire now).operations := List.mem_map_of_mem ho
  simp only [Function.comp_apply,started]
  split_ifs with hid
  · have he : expired o=q := hexp.same hmem hq (hid.trans hqid.symm)
    simp only [Operation.claimable,Operation.current,bool_ok,Bool.or_eq_true] at hclaim
    refine ⟨rfl,rfl,rfl,rfl,?_⟩
    rw [he]
    obtain hst | hst := hclaim.1.1.2
    · simp [Status.moves,hst]
    · simp [Status.moves,Status.settles,hst]
  · exact ⟨rfl,rfl,rfl,rfl,by simp [Status.moves,Status.settles]⟩

theorem quarantine_sound : Sound s s.quarantineRecovery := by
  intro hs
  have hops : s.quarantineRecovery.operations=s.operations.map fun o =>
      { o with recoveryInvalidated := true, claim := none } := by
    rw [quarantineRecovery_frame]
  have hforwards : Grown s s.quarantineRecovery := by
    intro id row hrow
    refine ⟨{ row with recoverySuspended := true },?_,le_rfl⟩
    rw [quarantineRecovery_frame,Table.lookup_alter,hrow]
    rfl
  refine hs.update (fun _ _ => Status.settles_moves) hforwards hops ?_
  intro o _
  exact ⟨rfl,rfl,rfl,rfl,by simp [Status.settles]⟩

theorem Acts.worked (hs : Queue s) (h : Acts s now e t) : Queue t ∧ Worked Status.moves s t := by
  have hsound : ∀{v : State}, Sound s v→Queue v ∧ Worked Status.moves s v := by
    intro v hv
    exact ⟨(hv hs).1,(hv hs).2.moves⟩
  cases h with
  | idle | administer | provision | hello => exact hsound (.of_eq rfl rfl)
  | command c => exact hsound c.sound
  | expire => exact hsound expire_sound
  | claim h => exact claim_worked hs h
  | turn _ _ hrow _ h => exact hsound (Turn.sound hrow h)
  | issue _ _ i => exact hsound i.sound
  | complete n => exact hsound (complete_sound none)
  | report h => exact hsound h.sound
  | quarantine => exact hsound quarantine_sound

theorem step_worked {e : Nat×Event} (hv : s.ValidSpecs) (hs : Queue s) (h : Step s e t) :
    Queue t ∧ Worked Status.moves s t := by
  obtain ⟨ht,hw⟩ := Acts.worked (s := { s with clock := e.1 })
    ⟨hs.bounded,hs.ids,hs.rows,hs.ordered⟩ (step_acts hv h)
  exact ⟨ht,hw.kept,hw.born,hw.length⟩

theorem run_queue {w : World} (h : Run Step (State.initial w) l s) : s.ValidSpecs ∧ Queue s := by
  refine h.invariant (fun u => u.ValidSpecs ∧ Queue u) ?_ ⟨run_validSpecs .refl,Queue.initial w⟩
  rintro a e b hab ⟨hv,hq⟩
  exact ⟨(step_acts hv hab).validSpecs hv,(step_worked hv hq hab).1⟩

theorem ended_stays (hv : s.ValidSpecs) (hs : Queue s) (h : Run Step s l t) (ho : o∈s.operations)
    (he : o.status.ended) : ∃p∈t.operations, p.id=o.id ∧ p.status=o.status := by
  have hinv : t.ValidSpecs ∧ Queue t ∧ ∃p∈t.operations, p.id=o.id ∧ p.status=o.status := by
    refine h.invariant (fun u => u.ValidSpecs ∧ Queue u ∧ ∃p∈u.operations, p.id=o.id ∧
      p.status=o.status) ?_ ⟨hv,hs,o,ho,rfl,rfl⟩
    rintro a e b hab ⟨hva,hqa,p,hp,hid,hst⟩
    obtain ⟨hqb,hw⟩ := step_worked hva hqa hab
    obtain ⟨q,hq,hpq⟩ := hw.kept p hp
    refine ⟨(step_acts hva hab).validSpecs hva,hqb,q,hq,hpq.id.trans hid,?_⟩
    have hsame := Status.moves_ended hpq.status (hst ▸ he)
    exact hsame.trans hst
  exact hinv.2.2

theorem issue_claimed {awaiting : Bool} {id : Nat}
    (h : s.issue now n awaiting (some (id,claim)) credential=.ok t) : t=s ∨
      ∃o∈t.operations, o.id=id ∧ o.status=.running ∧ o.claim.map (·.token)=some claim.token ∧
        now<claim.claimUntil ∧ now<o.executionDeadline := by
  unfold State.issue at h
  cases hrow : s.nodes.lookup n with
  | none => simp [hrow] at h
  | some row =>
    simp only [hrow,do_ok] at h
    obtain ⟨-,next,-,h⟩ := h
    split at h
    · cases h
      exact .inl rfl
    · simp only [bind_ok] at h
      obtain ⟨bound,-,h⟩ := h
      split at h
      · cases h
        exact .inl rfl
      · right
        simp only [State.issueNext,do_ok,Option.any_some,Bool.not_eq_true',Bool.not_eq_false] at h
        obtain ⟨-,-,u,-,p,-,-,hclaim,rfl⟩ := h
        rw [State.recordLeases_frame]
        simp only [State.claimHolds,List.any_eq_true,bool_ok] at hclaim
        obtain ⟨o,ho,⟨⟨⟨hid,hst⟩,htoken⟩,huntil⟩,hdeadline⟩ := hclaim
        exact ⟨o,ho,hid,hst,htoken,huntil,hdeadline⟩

theorem publish_claimed {id : Nat} (h : s.publish now n (some (id,claim)) credential=.ok t) :
    (t.snapshots=s.snapshots ∧ t.leases=s.leases ∧ t.retirements=s.retirements) ∨
      ∃o∈t.operations, o.id=id ∧ o.status=.running ∧ o.claim.map (·.token)=some claim.token ∧
        now<claim.claimUntil ∧ now<o.executionDeadline := by
  simp only [State.publish,bind_ok] at h
  obtain ⟨u,hu,h⟩ := h
  have hframe : u={ s with
      slots := u.slots, operations := u.operations, deployments := u.deployments } := by
    refine foldlM_ok (fun v => v={ s with
      slots := v.slots, operations := v.operations, deployments := v.deployments }) ?_ rfl hu
    intro b f c _ hb hc
    rw [State.advance_frame hc,hb]
  obtain rfl | hclaim := issue_claimed h
  · left
    rw [hframe]
    exact ⟨rfl,rfl,rfl⟩
  · exact .inr hclaim

/-- The life of the Operations in every step of every run. Of each Forward at most one Operation is
accepted or running, and it is newer than the others by target revision and creation time; a status
moves only from accepted to running or to its end, and an end is final; and a publication on behalf
of a claim is committed only while the claim is stored and its Operation runs in time. -/
theorem operation_lifecycle {w : World} {l : List (Nat×Event)} {e : Nat×Event} {s t : State}
    (hs : Run Step (State.initial w) l s) (ht : Step s e t) :
    (∀o∈s.operations, ∀p∈s.operations, o.forwardId=p.forwardId → o.current→p≠o→¬p.current ∧
      (p.targetRevision<o.targetRevision ∨
        (p.targetRevision=o.targetRevision ∧ p.createdAt<o.createdAt))) ∧
    (s.operations.map (·.id)).Nodup ∧
    (∀o∈s.operations, ∃p∈t.operations, p.id=o.id ∧ p.forwardId=o.forwardId ∧
      (p.status=o.status ∨ (o.status=.accepted ∧ p.status=.running) ∨
        (o.status=.running ∧ p.status=.succeeded) ∨
        ((o.status=.accepted ∨ o.status=.running) ∧ (p.status=.failed ∨ p.status=.superseded)))) ∧
    (∀p∈t.operations, (∃o∈s.operations, o.id=p.id) ∨ p.status=.accepted ∨ p.status=.failed ∨
      p.status=.superseded) ∧
    (∀m u, Run Step s m u→∀o∈s.operations,
      (o.status=.succeeded ∨ o.status=.failed ∨ o.status=.superseded)→
      ∃p∈u.operations, p.id=o.id ∧ p.status=o.status) ∧
    (∀n awaiting id claim credential, e.2=.issue n awaiting (some (id,claim)) credential→
      t={ s with clock := e.1 } ∨ ∃o∈t.operations, o.id=id ∧ o.status=.running ∧
        o.claim.map (·.token)=some claim.token ∧ e.1<claim.claimUntil ∧ e.1<o.executionDeadline) ∧
    ∀now n id claim credential u, s.publish now n (some (id,claim)) credential=.ok u→
      (u.snapshots=s.snapshots ∧ u.leases=s.leases ∧ u.retirements=s.retirements) ∨
      ∃o∈u.operations, o.id=id ∧ o.status=.running ∧ o.claim.map (·.token)=some claim.token ∧
        now<claim.claimUntil ∧ now<o.executionDeadline := by
  obtain ⟨hv,hq⟩ := run_queue hs
  obtain ⟨-,hw⟩ := step_worked hv hq ht
  refine ⟨?_,hq.ids,?_,?_,?_,?_,?_⟩
  · intro o ho p hp hid hcur hne
    obtain he | hold | hold := hq.compare ho hp
    · exact absurd he.symm hne
    · obtain ⟨h1,h2,h3⟩ := hold hid
      refine ⟨h3,?_⟩
      omega
    · exact absurd hcur (hold hid.symm).2.2
  · intro o ho
    obtain ⟨p,hp,hop⟩ := hw.kept o ho
    refine ⟨p,hp,hop.id,hop.forwardId,?_⟩
    have hmove := hop.status
    simp only [Status.moves,Status.settles,Bool.or_eq_true,bool_ok] at hmove
    obtain ((h | h) | h) | h := hmove
    · exact .inl h.symm
    · exact .inr (.inr (.inr h))
    · exact .inr (.inr (.inl h))
    · exact .inr (.inl h)
  · intro p hp
    obtain ⟨o,ho,hop⟩ | ⟨-,hst⟩ := hw.born p hp
    · exact .inl ⟨o,ho,hop.id.symm⟩
    · right
      simp only [Status.settles,Bool.or_eq_true,bool_ok] at hst
      obtain (h | ⟨-,h⟩) | ⟨h,-⟩ := hst
      · exact .inl h.symm
      · exact .inr h
      · cases h
  · intro m u hm o ho he
    refine ended_stays hv hq hm ho ?_
    simp only [Status.ended,Bool.or_eq_true,decide_eq_true_eq]
    exact or_assoc.mpr he
  · intro n awaiting id claim credential he
    unfold Step at ht
    rw [he] at ht
    exact issue_claimed ht
  · intro now n id claim credential u h
    exact publish_claimed h

/-- A direct Forward is created, its Operation is claimed under a token, and its Node published. -/
theorem operation_lifecycle_published : ∃s t,
    Run Step (State.initial openWorld) (startRun++[(1,.create 7 0 1 (directSpec 100)),(2,.claim 0 5)])
      s ∧ Step s (3,.issue 0 false (some (0,⟨5,15002⟩)) none) t ∧ (t.snapshots.lookup (0,1)).isSome ∧
      ∃o∈t.operations, o.id=0 ∧ o.status=.running ∧ o.claim.map (·.token)=some 5 ∧
        3<o.executionDeadline := by
  have hrun : ((performs (State.initial openWorld)
      (startRun++[(1,.create 7 0 1 (directSpec 100)),(2,.claim 0 5)])).bind fun s =>
      (perform s (3,.issue 0 false (some (0,⟨5,15002⟩)) none)).map fun t =>
        ((s.snapshots.lookup (0,1)).isSome,(t.snapshots.lookup (0,1)).isSome))=some (false,true) := by
    decide +kernel
  simp only [do_some] at hrun
  obtain ⟨s,hs,t,ht,hbefore,hafter⟩ := hrun
  refine ⟨s,t,run_performs hs,perform_some ht,hafter,?_⟩
  have hlife := operation_lifecycle (run_performs hs) (perform_some ht)
  obtain he | ⟨o,ho,hid,hst,htoken,-,hdeadline⟩ := hlife.2.2.2.2.2.1 0 false 0 ⟨5,15002⟩ none rfl
  · rw [he] at hafter
    simp [hbefore] at hafter
  · exact ⟨o,ho,hid,hst,htoken,hdeadline⟩

end TuneX.Control
