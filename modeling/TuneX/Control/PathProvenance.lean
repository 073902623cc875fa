import TuneX.Control.PathBindings

namespace TuneX.Control

open Framework

theorem expandPath_ok {spec e : Spec} {config : TemplateConfig} (h : expandPath spec config=.ok e) :
    e={ spec with via := config.nodes.tail, transport := some config.transport } ∧ e.valid ∧
    expandPath e config=.ok e := by
  simp only [expandPath,do_ok,Bool.not_eq_false] at h
  obtain ⟨hcap,hvalid,rfl⟩ := h
  refine ⟨rfl,hvalid,?_⟩
  simp only [expandPath,do_ok,Bool.not_eq_false]
  exact ⟨hcap,hvalid,trivial⟩

namespace PathTables

section
variable {τ : Type} {digests : PathDigests τ} {b c : PathTables τ}

/-- What the template commands have written passes their own checks. -/
structure Templates (digests : PathDigests τ) (b : PathTables τ) : Prop where
  heads : ∀k h, b.heads.lookup k=some h→validateTemplateHead h=.ok ()
  revisions : ∀s t n r, b.templates.lookup (s,t,n)=some r→
    validateTemplateRevision digests r n=.ok () ∧
    ∃h, b.heads.lookup (s,t)=some h ∧ n≤h.currentRevision

/-- Template revisions are immutable. -/
def Grows (b c : PathTables τ) : Prop :=
  ∀k r, b.templates.lookup k=some r→c.templates.lookup k=some r

/-- A binding as the commands write them. -/
structure Recorded (digests : PathDigests τ) (b : PathTables τ) (scope : ScopeId)
    (x : PathBinding τ) : Prop where
  selection : parsePathSelection x.selection
  revision : isCounter x.forwardRevision
  time : x.createdAt ≤ latestTime
  spec : x.expandedSpec.valid
  digest : x.specDigest=digests.spec x.expandedSpec
  template : ∃r, b.templates.lookup (scope,x.selection.templateId,x.selection.revision)=some r ∧
    r.configDigest=x.selection.configDigest ∧ expandPath x.expandedSpec r.config=.ok x.expandedSpec

variable {scope : ScopeId}

theorem Recorded.grows {x : PathBinding τ} (h : Recorded digests b scope x)
    (hg : Grows b c) : Recorded digests c scope x := by
  obtain ⟨r,hr,hrest⟩ := h.template
  exact { h with template := ⟨r,hg _ _ hr,hrest⟩ }

variable {s : PathSelection} {r record : TemplateRevision} {id expected : Nat}

theorem Templates.template_ok (h : Templates digests b)
    (hr : b.templates.lookup (scope,s.templateId,s.revision)=some r)
    (hd : r.configDigest=s.configDigest) : b.template digests scope s false=.ok r := by
  obtain ⟨hvalid,head,hhead,hle⟩ := h.revisions _ _ _ _ hr
  have hhead' := h.heads _ _ hhead
  have hnumber : r.revision=s.revision := by
    simp only [validateTemplateRevision,reject_ok,not_or,not_not] at hvalid
    exact hvalid.2.1
  have hcurrent : ¬(head.currentRevision < r.revision ∨ r.configDigest≠s.configDigest) := by
    rw [hnumber,hd]
    simp only [not_or,Nat.not_lt,not_not]
    exact ⟨hle,trivial⟩
  simp only [template,hhead,do_ok,hr]
  exact ⟨hhead',by simp,hvalid,hcurrent,trivial⟩

theorem template_found {active : Bool} (h : b.template digests scope s active=.ok r) :
    b.templates.lookup (scope,s.templateId,s.revision)=some r ∧ r.configDigest=s.configDigest := by
  unfold template at h
  split at h
  · simp at h
  simp only [do_ok] at h
  obtain ⟨-,-,h⟩ := h
  split at h
  · simp at h
  rename_i record hrecord
  simp only [do_ok,not_or,not_not] at h
  obtain ⟨-,hd,rfl⟩ := h
  exact ⟨hrecord,hd.2⟩

structure Published (digests : PathDigests τ) (b : PathTables τ) (scope : ScopeId) (id : Nat)
    (record : TemplateRevision) (c : PathTables τ) : Prop where
  expected : ∀h, b.heads.lookup (scope,id)=some h→h.currentRevision+1=record.revision
  first : b.heads.lookup (scope,id)=none → record.revision=1
  valid : validateTemplateRevision digests record record.revision=.ok ()
  written : c={ b with
    heads := b.heads.insert (scope,id) ⟨record.revision,false⟩
    templates := b.templates.insert (scope,id,record.revision) record }

theorem publish_ok {now count : Nat} {actor : ActorId} {config : TemplateConfig}
    {profile : Except Error Nat}
    (h : b.publish digests now actor scope id expected config profile count=.ok c) :
    c=b ∨ ∃record, Published digests b scope id record c := by
  simp only [publish,do_ok] at h
  obtain ⟨hconfig,-,hexpected,-,-,htime,profileDigest,-,h⟩ := h
  split at h
  · exact .inl ((pure_ok _ _).mp h).symm
  simp only [do_ok] at h
  obtain ⟨hroom,-,rfl⟩ := h
  refine .inr ⟨⟨expected+1,config,profileDigest,digests.config config profileDigest,actor,now⟩,
    ?_,?_,?_,rfl⟩
  · intro head hhead
    rw [hhead] at hexpected
    simp only [Option.map_some,Option.getD_some,not_not] at hexpected
    rw [hexpected]
  · intro hnone
    rw [hnone] at hexpected
    simp only [Option.map_none,Option.getD_none,not_not] at hexpected
    rw [← hexpected]
  · simp only [validateTemplateRevision,reject_ok,not_or,not_not,Bool.not_eq_false]
    have hcounter : isCounter (expected+1) := by
      have hmax : 64 ≤ maxCounter := by decide
      simp only [isCounter,bool_ok]
      omega
    exact ⟨by simpa using hconfig,trivial,hcounter,hroom,htime,trivial⟩

theorem Published.grows (h : Published digests b scope id record c) (ht : Templates digests b) :
    Grows b c := by
  intro k r hr
  rw [h.written]
  show (b.templates.insert (scope,id,record.revision) record).lookup k=some r
  rw [Table.lookup_insert_eq,if_neg]
  · exact hr
  · rintro rfl
    obtain ⟨-,head,hhead,hle⟩ := ht.revisions _ _ _ _ hr
    have hnext := h.expected head hhead
    omega

theorem Published.templates (h : Published digests b scope id record c) (ht : Templates digests b) :
    Templates digests c := by
  have hvalid := h.valid
  rw [h.written]
  constructor
  · intro k head hhead
    rcases Table.lookup_insert_some.mp hhead with ⟨-,rfl⟩ | ⟨-,hold⟩
    · simp only [validateTemplateRevision,reject_ok,not_or] at hvalid
      simp only [validateTemplateHead,reject_ok,not_or]
      exact ⟨hvalid.2.2.1,hvalid.2.2.2.1⟩
    · exact ht.heads k head hold
  · intro s t n r hr
    rcases Table.lookup_insert_some.mp hr with ⟨hk,rfl⟩ | ⟨-,hold⟩
    · obtain ⟨rfl,rfl,rfl⟩ : s=scope ∧ t=id ∧ n=record.revision := by simpa using hk
      refine ⟨hvalid,⟨record.revision,false⟩,?_,le_rfl⟩
      rw [Table.lookup_insert_eq,if_pos rfl]
    · obtain ⟨hrev,head,hhead,hle⟩ := ht.revisions s t n r hold
      refine ⟨hrev,?_⟩
      by_cases hk : (s,t)=(scope,id)
      · obtain ⟨rfl,rfl⟩ := Prod.mk.inj hk
        refine ⟨⟨record.revision,false⟩,?_,?_⟩
        · rw [Table.lookup_insert_eq,if_pos rfl]
        · have hnext := h.expected head hhead
          show n ≤ record.revision
          omega
      · refine ⟨head,?_,hle⟩
        rw [Table.lookup_insert_eq,if_neg hk]
        exact hhead

theorem archive_ok (h : b.archive digests scope id expected=.ok c) :
    ∃head, b.heads.lookup (scope,id)=some head ∧
      c={ b with heads := b.heads.insert (scope,id) { head with archived := true } } := by
  unfold archive at h
  split at h
  · simp at h
  rename_i head hhead
  simp only [do_ok] at h
  obtain ⟨-,-,-,rfl⟩ := h
  exact ⟨head,hhead,rfl⟩

theorem archive_templates (h : b.archive digests scope id expected=.ok c) (ht : Templates digests b) :
    Templates digests c := by
  obtain ⟨old,hold,rfl⟩ := archive_ok h
  constructor
  · intro k head hhead
    rcases Table.lookup_insert_some.mp hhead with ⟨-,rfl⟩ | ⟨-,hk⟩
    · have hok := ht.heads _ _ hold
      exact hok
    · exact ht.heads k head hk
  · intro s t n r hr
    obtain ⟨hrev,head,hhead,hle⟩ := ht.revisions s t n r hr
    refine ⟨hrev,?_⟩
    by_cases hk : (s,t)=(scope,id)
    · obtain ⟨rfl,rfl⟩ := Prod.mk.inj hk
      rw [hold] at hhead
      obtain rfl := Option.some.inj hhead
      refine ⟨{ old with archived := true },?_,hle⟩
      rw [Table.lookup_insert_eq,if_pos rfl]
    · refine ⟨head,?_,hle⟩
      rw [Table.lookup_insert_eq,if_neg hk]
      exact hhead

end

section
variable {τ : Type} [DecidableEq τ] {digests : PathDigests τ} {b c : PathTables τ}
  {current : Forward} {x : PathBinding τ} {requireCurrent : Bool}

theorem Recorded.checked (h : Templates digests b) (hx : Recorded digests b current.scopeId x)
    (hseq : isCounter x.sequence ∧ x.sequence≤64) (hrev : x.forwardRevision ≤ current.revision)
    (htop : requireCurrent→
      digests.topology current.spec.topology=digests.topology x.expandedSpec.topology) :
    b.checked digests current x requireCurrent=.ok () := by
  obtain ⟨r,hr,hd,hexpand⟩ := hx.template
  have htemplate := h.template_ok hr hd
  simp only [PathTables.checked,do_ok,htemplate,expandedDigest]
  refine ⟨by simp [hx.selection],?_,r,rfl,digests.spec x.expandedSpec,?_,?_⟩
  · simp only [not_or,Nat.not_lt,not_not,Bool.not_eq_false]
    exact ⟨hseq.1,hseq.2,hx.revision,hrev,hx.time,hx.spec,hx.digest⟩
  · rw [hexpand]
  · rw [not_or,not_not,not_and,not_not]
    exact ⟨hx.digest.symm,htop⟩

theorem checked_revision (h : b.checked digests current x requireCurrent=.ok ()) :
    isCounter x.forwardRevision := by
  simp only [checked,do_ok,not_or,Bool.not_eq_false] at h
  exact h.2.1.2.2.1

end

theorem foldl_max_numbered (n : Nat) : (List.range' 1 n).foldl max 0=n := by
  induction n with
  | zero => rfl
  | succ n ih =>
    rw [List.range'_concat,List.foldl_append,ih]
    simp only [List.foldl_cons,List.foldl_nil]
    omega

section
variable {τ : Type} {b : PathTables τ} {id : ForwardId}

/-- The bindings of a Forward are numbered from one, and the current one is the last. -/
structure Numbered (b : PathTables τ) : Prop where
  sequences : ∀id, (b.bindings id).map PathBinding.sequence=List.range' 1 (b.bindings id).length
  bounded : ∀id, (b.bindings id).length≤64
  last : ∀id s, b.current.lookup id=some s→
    s=(b.bindings id).length ∧ 0<(b.bindings id).length

variable {x : PathBinding τ}

theorem Numbered.sequence (h : Numbered b) (hx : x∈b.bindings id) :
    isCounter x.sequence ∧ x.sequence≤64 := by
  have hmem : x.sequence∈List.range' 1 (b.bindings id).length := by
    rw [← h.sequences id]
    exact List.mem_map_of_mem hx
  have hlen := h.bounded id
  have hmax : 64 ≤ maxCounter := by decide
  rw [List.mem_range'_1] at hmem
  refine ⟨?_,by omega⟩
  simp only [isCounter,bool_ok]
  omega

theorem currentBinding_mem (h : b.currentBinding id=some x) :
    x∈b.bindings id ∧ b.current.lookup id=some x.sequence := by
  unfold currentBinding at h
  obtain ⟨s,hs,hx⟩ := Option.bind_eq_some_iff.mp h
  have hseq := List.find?_some hx
  simp only [decide_eq_true_eq] at hseq
  rw [hseq]
  exact ⟨List.mem_of_find?_eq_some hx,hs⟩

theorem Numbered.current_some (h : Numbered b) {s : Nat} (hs : b.current.lookup id=some s) :
    ∃x, b.currentBinding id=some x := by
  obtain ⟨rfl,hpos⟩ := h.last id s hs
  have hmem : (b.bindings id).length∈(b.bindings id).map PathBinding.sequence := by
    rw [h.sequences id,List.mem_range'_1]
    omega
  obtain ⟨x,hx,hseq⟩ := List.mem_map.mp hmem
  unfold currentBinding
  rw [hs,Option.bind_some]
  cases hf : (b.bindings id).find? (·.sequence=(b.bindings id).length) with
  | none =>
    have hnone := List.find?_eq_none.mp hf x hx
    simp [hseq] at hnone
  | some y => exact ⟨y,rfl⟩

theorem Numbered.same (h : Numbered b) {y : PathBinding τ} (hx : x∈b.bindings id)
    (hy : y∈b.bindings id) (hseq : x.sequence=y.sequence) : x=y := by
  have hnodup : ((b.bindings id).map PathBinding.sequence).Nodup := by
    rw [h.sequences id]
    exact List.nodup_range'
  exact List.inj_on_of_nodup_map hnodup hx hy hseq

end

section
variable {τ : Type} [DecidableEq τ] {digests : PathDigests τ} {b c : PathTables τ}

structure Appended (digests : PathDigests τ) (b : PathTables τ) (now : Nat) (actor : ActorId)
    (next : Forward) (selection : PathSelection) (c : PathTables τ) : Prop where
  time : now≤latestTime
  room : ((b.bindings next.id).map PathBinding.sequence).foldl max 0<64
  revision : isCounter next.revision
  written : c={ b with
    history := b.history.insert next.id (b.bindings next.id++
      [⟨((b.bindings next.id).map PathBinding.sequence).foldl max 0+1,selection,next.revision,
        next.spec,digests.spec next.spec,actor,now⟩])
    current := b.current.insert next.id
      (((b.bindings next.id).map PathBinding.sequence).foldl max 0+1) }

theorem accept_ok {now : Nat} {actor : ActorId} {next : Forward} {selection : PathSelection}
    {r : PathBindingReceipt} (h : b.accept digests now actor next selection=.ok (c,r)) :
    (c=b ∧ ∃old, b.currentBinding next.id=some old ∧ old.selection=selection ∧
      digests.topology next.spec.topology=digests.topology old.expandedSpec.topology) ∨
    Appended digests b now actor next selection c := by
  unfold accept at h
  split at h
  · rename_i old hold
    simp only [do_ok] at h
    obtain ⟨-,heq⟩ := h
    obtain ⟨rfl,-⟩ := Prod.mk.inj heq
    obtain ⟨hcurrent,hsame⟩ := Option.filter_eq_some_iff.mp hold
    simp only [decide_eq_true_eq] at hsame
    exact .inl ⟨rfl,old,hcurrent,hsame.1,hsame.2⟩
  · simp only [do_ok,append] at h
    obtain ⟨htime,⟨t,record⟩,⟨hroom,heq⟩,hchecked,hlast⟩ := h
    obtain ⟨rfl,rfl⟩ := Prod.mk.inj heq
    obtain ⟨rfl,-⟩ := Prod.mk.inj hlast
    have hrev := checked_revision hchecked
    exact .inr ⟨Nat.not_lt.mp htime,Nat.not_le.mp hroom,hrev,rfl⟩

theorem preserve_ok {current next : Forward} (h : b.preserve digests current next=.ok c) :
    (c=b ∧ (∀x, b.currentBinding current.id=some x→
      digests.topology current.spec.topology=digests.topology next.spec.topology)) ∨
    (digests.topology current.spec.topology≠digests.topology next.spec.topology ∧
      c=b.detach current.id) := by
  unfold preserve at h
  split at h
  · rename_i hnone
    refine .inl ⟨((pure_ok _ _).mp h).symm,?_⟩
    intro x hx
    rw [hnone] at hx
    exact absurd hx (by simp)
  · simp only [do_ok] at h
    obtain ⟨-,h⟩ := h
    split at h
    · rename_i htop
      exact .inl ⟨((pure_ok _ _).mp h).symm,fun _ _ => htop⟩
    · rename_i htop
      exact .inr ⟨htop,((pure_ok _ _).mp h).symm⟩

end

section
variable {τ : Type} {digests : PathDigests τ} {b c : PathTables τ} {selection : PathSelection}
  {now : Nat} {actor : ActorId} {next : Forward}

section

variable (h : Appended digests b now actor next selection c)
include h

theorem Appended.bindings (id : ForwardId) : c.bindings id=if id=next.id then b.bindings next.id++
      [⟨((b.bindings next.id).map PathBinding.sequence).foldl max 0+1,selection,next.revision,
        next.spec,digests.spec next.spec,actor,now⟩] else b.bindings id := by
  rw [h.written]
  show ((b.history.insert next.id _).lookup id).getD []=_
  rw [Table.lookup_insert_eq]
  split
  · rfl
  · rfl

theorem Appended.current (id : ForwardId) : c.current.lookup id=if id=next.id then
      some (((b.bindings next.id).map PathBinding.sequence).foldl max 0+1)
      else b.current.lookup id := by
  rw [h.written]
  exact Table.lookup_insert_eq _ _ _ _

theorem Appended.numbered (hn : Numbered b) : Numbered c := by
  have hmax : ((b.bindings next.id).map PathBinding.sequence).foldl max 0=
      (b.bindings next.id).length := by
    rw [hn.sequences next.id]
    exact foldl_max_numbered _
  have hroom := h.room
  rw [hmax] at hroom
  refine ⟨?_,?_,?_⟩
  · intro id
    rw [h.bindings id]
    split
    · rw [List.map_append,hn.sequences next.id,List.length_append,List.length_singleton,
        List.range'_concat,foldl_max_numbered]
      simp only [List.map_singleton]
      rw [Nat.add_comm,Nat.one_mul]
    · exact hn.sequences id
  · intro id
    rw [h.bindings id]
    split
    · rw [List.length_append,List.length_singleton]
      omega
    · exact hn.bounded id
  · intro id s hs
    rw [h.current id] at hs
    rw [h.bindings id]
    split at hs
    · rename_i hid
      rw [if_pos hid,List.length_append,List.length_singleton,← hmax]
      obtain rfl := Option.some.inj hs
      omega
    · rename_i hid
      rw [if_neg hid]
      exact hn.last id s hs

end

end

end PathTables

end TuneX.Control
