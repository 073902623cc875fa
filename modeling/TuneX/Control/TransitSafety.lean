import TuneX.Control.TransitStages
import Mathlib.Logic.Relation

namespace TuneX.Control.Transit

open Framework

namespace Staging

variable {ι : Type} {digests : PlanDigests ι} {w w' : Staging ι}

theorem release_lookup (slots : Slots) (sockets : List (String×Protocol×Nat))
    (socket : String×Protocol×Nat) : (release slots sockets).lookup socket=
      (slots.lookup socket).map fun row =>
        if socket∈sockets then { row with ownerId := none } else row := by
  unfold release
  rw [Table.lookup_alter]

/-- What an abort found when it released the slots of a stage. -/
structure Released (w w' : Staging ι) (c : Remains) (id : String) (generation : Nat)
    (row : TransitStageRow ι) : Prop where
  stored : row∈w.rows id ∧ row.generation=generation ∧ row.scopeId=c.scopeId
  state : row.state=.reserved
  uncoordinated : (w.journals (id,generation)).row=none
  leases : ∀lease∈c.leases, lease.1=id→lease.2+5000 ≤ c.now
  snapshots : ∀node∈row.body.nodeIds, ∀s∈c.snapshots node, c.now<s.2+5000→
    ∃named, s.1=some named ∧ id∉named
  kept : ∀a∈row.body.assignments,
    w.slots.lookup a.socket=some ⟨some id,a.bindingFence,generation⟩
  slots : w'.slots=release w.slots (row.body.assignments.map HopBinding.socket)
  stages : w'.stages=w.stages.insert id ((w.rows id).map fun r =>
    if r.generation=generation then { r with state := .aborted } else r)
  journals : w'.journals=w.journals

variable {id : String} {row : TransitStageRow ι} {c : Remains} {generation : Nat}

theorem staged_ok (h : w.staged c id generation=.ok row) :
    row∈w.rows id ∧ row.generation=generation ∧ row.scopeId=c.scopeId := by
  unfold staged at h
  split at h
  · cases h
  · rename_i r hr
    obtain rfl := Except.ok.inj h
    have hkey := List.find?_some hr
    simp only [Bool.decide_and,bool_ok] at hkey
    exact ⟨List.mem_of_find?_eq_some hr,hkey⟩

theorem not_threatens {now : Int} {s : Option (List String)×Int}
    (h : threatens id now s=false) (hlive : now<s.2+5000) : ∃named, s.1=some named ∧ id∉named := by
  have hlate : now-5000 < s.2 := by omega
  unfold threatens at h
  rw [decide_eq_true hlate,Bool.true_and] at h
  split at h
  · cases h
  · rename_i named hnamed
    exact ⟨named,hnamed,of_decide_eq_false h⟩

theorem abort_ok {done : Bool} (h : w.abort digests c id generation=.ok (w',done)) :
    (done=false ∧ w'=w) ∨ (done=true ∧ ∃row, Released w w' c id generation row) := by
  simp only [abort,do_ok,not_not] at h
  obtain ⟨-,row,hrow,-,plan,hplan,h⟩ := h
  obtain ⟨rfl,-⟩ := verify_ok hplan
  split_ifs at h with hstate
  · obtain ⟨rfl,rfl⟩ := Prod.mk.inj ((pure_ok _ _).mp h)
    exact .inl ⟨rfl,rfl⟩
  · simp only [do_ok,Prod.mk.injEq,not_exists,not_and,Bool.not_eq_true,Bool.not_eq_false,
    Option.isSome_eq_false_iff,Option.isNone_iff_eq_none,Int.not_lt] at h
    obtain ⟨hjournal,-,hleases,hsnapshots,hkept,rfl,rfl⟩ := h
    have hreserved : row.state=.reserved := by
      cases hs : row.state with
      | reserved => rfl
      | aborted => exact absurd hs hstate
    refine .inr ⟨rfl,row,staged_ok hrow,hreserved,hjournal,?_,?_,?_,rfl,rfl,rfl⟩
    · intro lease hlease hid
      exact hleases lease hlease hid
    · intro node hnode s hs hlive
      exact not_threatens (hsnapshots node hnode s hs) hlive
    · intro a ha
      exact of_decide_eq_true (hkept a ha)

/-- The tables as the transactions leave them. -/
structure Sound (digests : PlanDigests ι) (w : Staging ι) : Prop where
  ordered : ∀id, (w.rows id).Pairwise fun a b => a.state=.aborted ∧ a.generation<b.generation
  verified : ∀id, ∀r∈w.rows id, r.forwardId=id ∧ verifyTransitStage digests.body r=.ok r.body
  coordinated : ∀id generation, (w.journals (id,generation)).row.isSome→
    ∃r∈w.rows id, r.generation=generation ∧ r.state=.reserved

theorem Sound.start : Sound digests (start : Staging ι) :=
  ⟨fun _ => .nil,nofun,nofun⟩

theorem rows_insert {stages : Table String (List (TransitStageRow ι))}
    {l : List (TransitStageRow ι)} (h : w'.stages=stages.insert id l) (other : String) :
    w'.rows other=if other=id then l else (stages.lookup other).getD [] := by
  unfold rows
  rw [h,Table.lookup_insert_eq]
  split_ifs <;> rfl

theorem newest_max {old : TransitStageRow ι} (h : w.newest id=some old) :
    old∈w.rows id ∧ ∀r∈w.rows id, r.generation≤old.generation := by
  refine ⟨first_mem h,fun r hr => ?_⟩
  have hbefore := first_before (fun a b c hab hbc => by
    simp only [decide_eq_true_eq] at *
    omega) (fun a b => by
    simp only [decide_eq_true_eq]
    omega) h r hr
  exact of_decide_eq_true hbefore

theorem Sound.all_aborted (k : Sound digests w) {bound : Nat}
    (hnewest : ∀old, w.newest id=some old → old.state=.aborted ∧ old.generation<bound)
    {r : TransitStageRow ι} (hr : r∈w.rows id) : r.state=.aborted ∧ r.generation<bound := by
  cases hn : w.newest id with
  | none =>
    rw [newest,first_eq_none] at hn
    rw [hn] at hr
    exact absurd hr List.not_mem_nil
  | some old =>
    obtain ⟨hold,hmax⟩ := newest_max hn
    obtain ⟨hstate,hlt⟩ := hnewest old hn
    refine ⟨?_,lt_of_le_of_lt (hmax r hr) hlt⟩
    obtain ⟨i,hi,rfl⟩ := List.mem_iff_getElem.mp hr
    obtain ⟨j,hj,rfl⟩ := List.mem_iff_getElem.mp hold
    have hordered := List.pairwise_iff_getElem.mp (k.ordered id)
    rcases Nat.lt_trichotomy i j with hij | rfl | hij
    · exact (hordered i j hi hj hij).1
    · exact hstate
    · have hlater := (hordered j i hj hi hij).2
      have hle := hmax _ hr
      omega

theorem Sound.rewrite (k : Sound digests w) {l : List (TransitStageRow ι)}
    (hs : w'.stages=w.stages.insert id l) (hj : w'.journals=w.journals)
    (ho : l.Pairwise fun a b => a.state=.aborted ∧ a.generation<b.generation)
    (hv : ∀r∈l, r.forwardId=id ∧ verifyTransitStage digests.body r=.ok r.body)
    (hc : ∀r∈w.rows id, (w.journals (id,r.generation)).row.isSome → r∈l) : Sound digests w' := by
  have hrows := rows_insert hs
  refine ⟨?_,?_,?_⟩
  · intro other
    rw [hrows other]
    split_ifs
    · exact ho
    · exact k.ordered other
  · intro other r hr
    rw [hrows other] at hr
    split_ifs at hr with hid
    · exact hid ▸ hv r hr
    · exact k.verified other r hr
  · intro other g hsome
    rw [hj] at hsome
    obtain ⟨r,hr,rfl,hstate⟩ := k.coordinated other g hsome
    refine ⟨r,?_,rfl,hstate⟩
    rw [hrows other]
    split_ifs with hid
    · subst hid
      exact hc r hr hsome
    · exact hr

theorem Sound.stage (k : Sound digests w) {c : Surroundings ι} {f : Forward}
    {expected : List TransitResource} {reservations : List ReservedTransitResource}
    (h : Accepted digests w w' c id f expected reservations row) :
    Sound digests w' := by
  refine k.rewrite h.stages h.journals ?_ ?_ fun r hr _ => List.mem_append_left _ hr
  · rw [List.pairwise_append]
    refine ⟨k.ordered id,List.pairwise_singleton _ _,?_⟩
    intro a ha b hb
    obtain rfl := List.mem_singleton.mp hb
    exact k.all_aborted h.newest ha
  · intro r hr
    rcases List.mem_append.mp hr with hr | hr
    · exact k.verified id r hr
    · obtain rfl := List.mem_singleton.mp hr
      exact ⟨h.identity.1,h.verified⟩

theorem Sound.abort (k : Sound digests w) (h : Released w w' c id generation row) :
    Sound digests w' := by
  refine k.rewrite h.stages h.journals ?_ ?_ ?_
  · rw [List.pairwise_map]
    refine (k.ordered id).imp fun {a b} hab => ?_
    split_ifs <;> exact ⟨by first | exact hab.1 | rfl,hab.2⟩
  · intro r hr
    obtain ⟨r',hr',rfl⟩ := List.mem_map.mp hr
    have hold := k.verified id r' hr'
    split_ifs <;> exact hold
  · intro r hr hsome
    have hother : r.generation≠generation := by
      intro heq
      rw [heq,h.uncoordinated] at hsome
      cases hsome
    exact List.mem_map.mpr ⟨r,hr,if_neg hother⟩

end Staging

section
variable {ι : Type} {digest : PlanBody ι→String} {journal : Digests}
  {stageRow : TransitStageRow ι} {j j' : Journal} {answer : Option OfflineTransitCommand}

theorem Journal.step_begins {call : Call}
    (h : j.step digest journal stageRow call=.ok (j',answer)) (hnone : j.row=none)
    (hsome : j'.row.isSome) : ∃c, call=.begin_ c ∧ c.stageState=.reserved := by
  cases call with
  | begin_ c =>
    simp only [Journal.step,Journal.begin_,stage,do_ok,not_not] at h
    obtain ⟨plan,⟨-,-,-,found,-,hstate,-⟩,-⟩ := h
    exact ⟨c,rfl,hstate⟩
  | peek c | confirm c proof verified | fail c =>
    simp only [Journal.step,Journal.peek,Journal.confirm,Journal.fail,bind_ok] at h
    obtain ⟨plan,-,body,hbody,-⟩ := h
    obtain ⟨row,hrow,-⟩ := locked_row hbody
    rw [hnone] at hrow
    cases hrow
  | quarantineRecovery state others =>
    simp only [Journal.step,Journal.quarantineRecovery,hnone,do_ok,Prod.mk.injEq] at h
    obtain ⟨-,rfl,-⟩ := h
    rw [hnone] at hsome
    cases hsome

theorem Moves.begun {plan : TransitPreparation ι} (h : Moves journal plan j j' answer)
    (hsome : j.row.isSome) : j'.row.isSome := by
  cases h with
  | keep => exact hsome
  | begin_ | confirm | cut => rfl

end

namespace Staging

variable {ι : Type} {digests : PlanDigests ι} {before : TransitResource→TransitResource→Bool}
  {journal : Digests} {w w' : Staging ι} {row : TransitStageRow ι}

theorem Sound.coordinate (k : Sound digests w) {call : Call} {j : Journal}
    {answer : Option OfflineTransitCommand} (hrow : row∈w.rows row.forwardId)
    (hsees : w.sees row call)
    (h : (w.journals (row.forwardId,row.generation)).step digests.body journal row call=
      .ok (j,answer)) : Sound digests { w with journals :=
        fun key => if key=(row.forwardId,row.generation) then j else w.journals key } := by
  refine ⟨k.ordered,k.verified,?_⟩
  intro id generation hsome
  change (if (id,generation)=(row.forwardId,row.generation) then j
    else w.journals (id,generation)).row.isSome at hsome
  show ∃r∈w.rows id, r.generation=generation ∧ r.state=.reserved
  split_ifs at hsome with hkey
  · obtain ⟨rfl,rfl⟩ := Prod.mk.inj hkey
    cases hold : (w.journals (row.forwardId,row.generation)).row with
    | some _ => exact k.coordinated _ _ (by rw [hold]; rfl)
    | none =>
      obtain ⟨c,rfl,hreserved⟩ := Journal.step_begins h hold hsome
      exact ⟨row,hrow,rfl,hsees.1.symm.trans hreserved⟩
  · exact k.coordinated id generation hsome

theorem Sound.step (k : Sound digests w) (h : Step digests before journal w w') :
    Sound digests w' := by
  cases h with
  | stage h =>
    obtain ⟨f,expected,reservations,row,hrow,-⟩ := stage_ok h
    exact k.stage hrow
  | abort h =>
    rcases abort_ok h with ⟨-,rfl⟩ | ⟨-,row,hrow⟩
    · exact k
    · exact k.abort hrow
  | coordinate hrow hsees h => exact k.coordinate hrow hsees h
  | take | give => exact ⟨k.ordered,k.verified,k.coordinated⟩

theorem release_fence (slots : Slots) (sockets : List (String×Protocol×Nat))
    (socket : String×Protocol×Nat) :
    ((release slots sockets).at_ socket).fence=(slots.at_ socket).fence := by
  unfold Slots.at_
  rw [release_lookup]
  cases slots.lookup socket with
  | none => rfl
  | some row =>
    show (if socket∈sockets then { row with ownerId := none } else row).fence=row.fence
    split_ifs <;> rfl

theorem Step.fence (h : Step digests before journal w w') (socket : String×Protocol×Nat) :
    (w.slots.at_ socket).fence≤(w'.slots.at_ socket).fence := by
  cases h with
  | stage h =>
    obtain ⟨f,expected,reservations,row,hrow,-⟩ := stage_ok h
    by_cases hmem : socket∈row.body.assignments.map HopBinding.socket
    · obtain ⟨a,ha,rfl⟩ := List.mem_map.mp hmem
      obtain ⟨-,hfence,hstored⟩ := hrow.slot ha
      unfold Slots.at_ at hfence ⊢
      rw [hstored]
      show _≤a.bindingFence
      omega
    · unfold Slots.at_
      rw [hrow.frame hmem]
  | abort h =>
    rcases abort_ok h with ⟨-,rfl⟩ | ⟨-,row,hrow⟩
    · exact le_rfl
    · rw [hrow.slots,release_fence]
  | coordinate => exact le_rfl
  | @take taken owner generation =>
    show _≤(Slots.at_ (w.slots.insert taken _) socket).fence
    rw [Slots.at_insert]
    split_ifs with heq
    · rw [heq]
      exact Nat.le_succ _
    · exact le_rfl
  | give =>
    show _≤((release w.slots _).at_ socket).fence
    rw [release_fence]

variable {key : String×Nat} {id : String}

theorem Step.begun (h : Step digests before journal w w')
    (hsome : (w.journals key).row.isSome) : (w'.journals key).row.isSome := by
  cases h with
  | stage h =>
    obtain ⟨f,expected,reservations,row,hrow,-⟩ := stage_ok h
    rw [hrow.journals]
    exact hsome
  | abort h =>
    rcases abort_ok h with ⟨-,rfl⟩ | ⟨-,row,hrow⟩
    · exact hsome
    · rw [hrow.journals]
      exact hsome
  | @coordinate row call j answer _ _ h =>
    show (if key=(row.forwardId,row.generation) then j else w.journals key).row.isSome
    split_ifs with hkey
    · rw [hkey] at hsome
      exact (step_moves h).begun hsome
    · exact hsome
  | take | give => exact hsome

/-- What a stage has taken, where `earlier` holds of the states the tables have been in. -/
structure Taken (digests : PlanDigests ι) (earlier : Staging ι→Prop) (w w' : Staging ι)
    (id : String) (f : Forward) (plan : TransitPreparation ι) : Prop where
  places : plan.assignments.map (fun a => (a.nodeId,a.protocol))=f.path.product f.protocols
  once : (f.path.product f.protocols).Nodup ∧ (plan.assignments.map HopBinding.socket).Nodup
  owned : ∀a∈plan.assignments,
    w'.slots.lookup a.socket=some ⟨some id,a.bindingFence,plan.deploymentGeneration⟩
  unowned : ∀a∈plan.assignments, (w.slots.at_ a.socket).ownerId=none
  fences : ∀t, earlier t→∀a∈plan.assignments, (t.slots.at_ a.socket).fence<a.bindingFence
  frame : ∀socket∉plan.assignments.map HopBinding.socket,
    w'.slots.lookup socket=w.slots.lookup socket
  stored : ∃row, w'.rows id=w.rows id++[row] ∧ row.body=plan ∧ row.state=.reserved ∧
    row.generation=plan.deploymentGeneration ∧ verifyTransitStage digests.body row=.ok plan

/-- What an abort has given back, and what made it safe. -/
structure Returned (digests : PlanDigests ι) (earlier : Staging ι→Prop) (w w' : Staging ι)
    (c : Remains) (id : String) (generation : Nat) (row : TransitStageRow ι) : Prop where
  stage : row∈w.rows id ∧ row.generation=generation ∧ row.state=.reserved
  uncoordinated : ∀t, earlier t→(t.journals (id,generation)).row=none
  leases : ∀lease∈c.leases, lease.1=id→¬c.now<lease.2+5000
  snapshots : ∀node∈row.body.nodeIds, ∀s∈c.snapshots node, c.now<s.2+5000→
    ∃named, s.1=some named ∧ id∉named
  kept : ∀a∈row.body.assignments,
    w.slots.lookup a.socket=some ⟨some id,a.bindingFence,generation⟩
  released : ∀a∈row.body.assignments,
    w'.slots.lookup a.socket=some ⟨none,a.bindingFence,generation⟩
  frame : ∀socket∉row.body.assignments.map HopBinding.socket,
    w'.slots.lookup socket=w.slots.lookup socket
  stored : w'.rows id=(w.rows id).map fun r =>
    if r.generation=generation then { r with state := .aborted } else r

section
variable (digests before journal)

def Reach (w w' : Staging ι) : Prop :=
  Relation.ReflTransGen (Step digests before journal) w w'

/-- The states on the way from empty tables. -/
def Earlier (w t : Staging ι) : Prop :=
  Reach digests before journal start t ∧ Reach digests before journal t w

end

theorem Reach.sound (h : Reach digests before journal start w) : Sound digests w := by
  induction h with
  | refl => exact Sound.start
  | tail _ hstep ih => exact ih.step hstep

theorem Reach.fence (h : Reach digests before journal w w') (socket : String×Protocol×Nat) :
    (w.slots.at_ socket).fence≤(w'.slots.at_ socket).fence := by
  induction h with
  | refl => exact le_rfl
  | tail _ hstep ih => exact ih.trans (hstep.fence socket)

theorem Reach.begun (h : Reach digests before journal w w')
    (hsome : (w.journals key).row.isSome) : (w'.journals key).row.isSome := by
  induction h with
  | refl => exact hsome
  | tail _ hstep ih => exact hstep.begun ih

theorem Accepted.taken {c : Surroundings ι} {f : Forward} {expected : List TransitResource}
    {reservations : List ReservedTransitResource}
    (k : Accepted digests w w' c id f expected reservations row) :
    Taken digests (Earlier digests before journal w) w w' id f row.body := by
  refine ⟨k.prepared.keys,⟨k.prepared.keys ▸ k.prepared.keys_nodup,k.prepared.sockets_nodup⟩,?_,?_,
    ?_,fun _ h => k.frame h,?_⟩
  · intro a ha
    rw [k.deployment]
    exact (k.slot ha).2.2
  · intro a ha
    exact (k.slot ha).1
  · rintro t ⟨-,hlater⟩ a ha
    have hle := hlater.fence a.socket
    have hfence := (k.slot ha).2.1
    omega
  · refine ⟨row,?_,rfl,k.state,k.deployment.symm,k.verified⟩
    rw [rows_insert k.stages,if_pos rfl]

theorem Released.returned {c : Remains} {generation : Nat}
    (k : Released w w' c id generation row) :
    Returned digests (Earlier digests before journal w) w w' c id generation row := by
  refine ⟨⟨k.stored.1,k.stored.2.1,k.state⟩,?_,fun lease hlease hid => ?_,k.snapshots,k.kept,?_,?_,?_⟩
  · rintro t ⟨-,hlater⟩
    by_contra hsome
    have hnow := hlater.begun (Option.isSome_iff_ne_none.mpr hsome)
    rw [k.uncoordinated] at hnow
    cases hnow
  · exact Int.not_lt.mpr (k.leases lease hlease hid)
  · intro a ha
    rw [k.slots,release_lookup,k.kept a ha,Option.map_some,if_pos (List.mem_map_of_mem ha)]
  · intro socket hsocket
    rw [k.slots,release_lookup]
    simp only [if_neg hsocket,Option.map_id']
  · rw [rows_insert k.stages,if_pos rfl]

theorem Sound.reserved (k : Sound digests w) (id : String) :
    ((w.rows id).filter fun r => r.state=.reserved).length≤1 := by
  have hpairs := (k.ordered id).filter fun r => decide (r.state=.reserved)
  cases hl : (w.rows id).filter fun r => decide (r.state=.reserved) with
  | nil => exact Nat.zero_le _
  | cons a l =>
    cases l with
    | nil => exact le_rfl
    | cons b l =>
      have ha : a∈(w.rows id).filter fun r => decide (r.state=.reserved) := by
        rw [hl]
        exact List.mem_cons_self
      have hreserved := of_decide_eq_true (List.mem_filter.mp ha).2
      rw [hl,List.pairwise_cons] at hpairs
      have haborted := (hpairs.1 b List.mem_cons_self).1
      rw [hreserved] at haborted
      cases haborted

/-- The tables after a transaction, which rolls back when it fails. -/
def committed {α : Type} (w : Staging ι) : Except String (Staging ι×α)→Staging ι
  | .ok (w',_) => w'
  | .error _ => w

/-- All or nothing, for every interleaving of stages, aborts, coordination and other owners. -/
theorem transit_staging (h : Reach digests before journal start w) (id : String) :
    (((w.rows id).filter fun r => r.state=.reserved).length≤1 ∧
      ((w.rows id).map TransitStageRow.generation).Pairwise (·<·) ∧
      ∀r∈w.rows id, verifyTransitStage digests.body r=.ok r.body) ∧
    (∀c expected w' plan, w.stage digests before c id expected=.ok (w',plan)→
      ∃f, c.forward id=some f ∧
        Taken digests (Earlier digests before journal w) w w' id f plan) ∧
    (∀c generation w', w.abort digests c id generation=.ok (w',true)→
      ∃row, Returned digests (Earlier digests before journal w) w w' c id generation row) ∧
    (∀c generation w', w.abort digests c id generation=.ok (w',false)→w'=w) ∧
    (∀c expected e, w.stage digests before c id expected=.error e→
      (w.committed (w.stage digests before c id expected)).slots=w.slots) ∧
    ∀c generation e, w.abort digests c id generation=.error e→
      (w.committed (w.abort digests c id generation)).slots=w.slots := by
  have k := Reach.sound h
  refine ⟨⟨k.reserved id,?_,fun r hr => (k.verified id r hr).2⟩,?_,?_,?_,?_,?_⟩
  · rw [List.pairwise_map]
    exact (k.ordered id).imp fun hab => hab.2
  · intro c expected w' plan hstage
    obtain ⟨f,resources,reservations,row,hrow,rfl⟩ := stage_ok hstage
    exact ⟨f,hrow.forward.1,Accepted.taken hrow⟩
  · intro c generation w' habort
    rcases abort_ok habort with ⟨hdone,-⟩ | ⟨-,row,hrow⟩
    · cases hdone
    · exact ⟨row,hrow.returned⟩
  · intro c generation w' habort
    rcases abort_ok habort with ⟨-,hsame⟩ | ⟨hdone,-⟩
    · exact hsame
    · cases hdone
  · intro c expected e hfail
    rw [hfail]
    rfl
  · intro c generation e hfail
    rw [hfail]
    rfl

end Staging

def threeHops : Forward := ⟨"f","s",1,true,[.tcp],"a","10.0.0.1",80,["b","c"],some ("p",1)⟩

def pinOf (id : String) : String :=
  String.ofList ("sha256:".toList++List.replicate 64 (id.toList.headD '0'))

def openSurroundings : Surroundings Unit where
  actor := "u"
  scopeId := "s"
  now := 0
  forward := fun _ => some threeHops
  authorizer := fun _ => some "u"
  sessions := fun _ => some 1
  profile := fun _ => .ok ("d",8)
  node := fun id => .ok ⟨1000000,[(pinOf id,1000000)]⟩
  endpoint := fun _ => .ok ⟨"10.0.0.2",[300,301]⟩
  permitted := fun _ => .ok ()
  intents := fun _ _ => .ok []

/-- Only another Forward is leased, and what cannot be read has lapsed. -/
def quietRemains : Staging.Remains :=
  ⟨"u","s",1000,fun _ => some 1,[("g",1000000)],fun _ => [(some ["g"],1000000),(none,-10000)]⟩

def textPlans : PlanDigests Unit where
  body := planText
  path f generation hops := ":".intercalate (f.id::toString generation::hops.map HopBinding.nodeId)
  assignment node forward p role :=
    ":".intercalate [node,forward,toString p.ctorIdx,toString role.ctorIdx]

namespace Staging

theorem transit_staging_aborted : ∃w w' plan row,
    Taken textPlans (Earlier textPlans (fun _ _ => true) textDigests start) start w "f" threeHops
      plan ∧ plan.assignments.map HopBinding.assignmentId=["a:f:0:0","b:f:0:1","c:f:0:2"] ∧
    Returned textPlans (Earlier textPlans (fun _ _ => true) textDigests w) w w' quietRemains "f" 1
      row := by
  have hrun : ((start.stage textPlans (fun _ _ => true) openSurroundings "f" 1).toOption.bind
      fun x => (x.1.abort textPlans quietRemains "f" 1).toOption.map
        fun y => (x.2.assignments.map HopBinding.assignmentId,y.2))=
      some (["a:f:0:0","b:f:0:1","c:f:0:2"],true) := by
    decide +kernel
  simp only [do_some,toOption_ok] at hrun
  obtain ⟨⟨w,plan⟩,hstage,⟨w',_⟩,habort,hnames,rfl⟩ := hrun
  have hstart : Reach textPlans (fun _ _ => true) textDigests start start := .refl
  have hreach : Reach textPlans (fun _ _ => true) textDigests start w := .single (.stage hstage)
  obtain ⟨f,hf,htaken⟩ := (transit_staging hstart "f").2.1 _ _ _ _ hstage
  obtain rfl := Option.some.inj hf
  obtain ⟨row,hreturned⟩ := (transit_staging hreach "f").2.2.1 _ _ _ habort
  exact ⟨w,w',plan,row,htaken,hnames,hreturned⟩

end Staging

end TuneX.Control.Transit
