import TuneX.Control.TransitCoordination

namespace TuneX.Control.Transit

open Framework
open Agent (counterOk)

section
variable {ι : Type} {digest : PlanBody ι→String} {digests : Digests}

/-- What a stored plan is known to be once it has been verified. -/
structure Staged (row : TransitStageRow ι) : Prop where
  size : 0<row.body.activationOrder.length
  forward : row.body.forwardId=row.forwardId
  generation : row.body.deploymentGeneration=row.generation

variable {plan : TransitPreparation ι} {highwater : Table String Nat}

theorem verify_ok {row : TransitStageRow ι} (h : verifyTransitStage digest row=.ok plan) :
    plan=row.body ∧ Staged row := by
  simp only [verifyTransitStage,do_ok,not_or,not_not] at h
  obtain ⟨-,⟨-,-,hforward,-,-,hgeneration,-⟩,⟨hfew,-,-,-,hlength,-⟩,rfl⟩ := h
  refine ⟨rfl,⟨?_,hforward,hgeneration⟩⟩
  rw [hlength]
  omega

theorem stage_ok {stageRow : TransitStageRow ι} {c : Circumstances}
    (h : stage digest stageRow c=.ok plan) : plan=stageRow.body ∧ Staged stageRow := by
  simp only [stage,do_ok] at h
  obtain ⟨-,-,-,p,hp,-,rfl⟩ := h
  exact verify_ok hp

theorem bodyOf_ok (row : CoordinationRow) (plan : TransitPreparation ι) (body : CoordinationBody) :
    bodyOf digests row plan=.ok body ↔ body=row.toCoordinationBody ∧ counterOk row.revision ∧
      row.planDigest=plan.planDigest ∧ row.forwardId=plan.forwardId ∧
      row.generation=plan.deploymentGeneration ∧
      (∀r∈row.receiptHighwater.rows, r.1∈plan.activationOrder ∧ counterOk r.2) ∧
      ¬row.phase.misplaced row.position plan.activationOrder.length ∧
      digests.journal row.toCoordinationBody=row.journalDigest := by
  simp only [bodyOf,do_ok,not_or,not_not,not_exists,not_and,Bool.not_eq_false]
  constructor
  · rintro ⟨h,rfl⟩
    exact ⟨rfl,h⟩
  · rintro ⟨rfl,h⟩
    exact ⟨h,rfl⟩

variable {body : CoordinationBody}

theorem offlineTransitStep_some {c : OfflineTransitCommand}
    (h : offlineTransitStep digests plan body=.ok (some c)) :
    body.phase≠.sealed ∧ body.phase≠.quarantined ∧
    (body.phase.order plan)[body.position]?=some c.nodeId ∧ c.action=body.phase.action := by
  unfold offlineTransitStep at h
  split at h
  · simp at h
  rename_i hphase
  split at h
  · simp at h
  rename_i nodeId hnode
  simp only [do_ok,Option.some.injEq] at h
  obtain ⟨-,rfl⟩ := h
  rw [not_or] at hphase
  exact ⟨hphase.1,hphase.2,hnode,rfl⟩

theorem offlineTransitStep_terminal (h : body.phase=.sealed ∨ body.phase=.quarantined) :
    offlineTransitStep digests plan body=.ok none := by
  unfold offlineTransitStep
  rw [if_pos h]

theorem locked_row {j : Journal} (h : locked digests j plan=.ok body) :
    ∃row, j.row=some row ∧ body=row.toCoordinationBody := by
  unfold locked at h
  split at h
  · simp at h
  · rename_i row hrow
    exact ⟨row,hrow,((bodyOf_ok _ _ _).mp h).1⟩

theorem persist_ok {phase : Phase} {position : Nat} {row : CoordinationRow}
    (h : persist digests body phase position highwater=.ok row) :
    body.revision < Agent.maxCounter ∧ row.toCoordinationBody={ body with
      phase := phase, position := position, receiptHighwater := highwater
      revision := body.revision+1 } ∧
    row.journalDigest=digests.journal row.toCoordinationBody := by
  simp only [persist,do_ok,Nat.not_le] at h
  obtain ⟨hrev,rfl⟩ := h
  exact ⟨hrev,rfl,rfl⟩

theorem checkProof_ok {command : OfflineTransitCommand} {proof : TransitObservationProof}
    {now : Int} (h : checkProof command proof highwater now=.ok ()) :
    proof.nodeId=command.nodeId ∧ counterOk proof.reportSequence ∧
    (highwater.lookup proof.nodeId).getD 0<proof.reportSequence := by
  simp only [checkProof,do_ok,not_or,not_not,Nat.not_le,Bool.not_eq_false] at h
  exact ⟨h.1.1,h.1.2.2.2.1,h.1.2.2.2.2.1⟩

end

/-- All steps of a plan that is never cut. -/
def forwardSteps (order : List String) : List (Action×String) :=
  order.map (Action.prepare,·)++order.map (Action.activate,·)

def withdrawals (order : List String) : List (Action×String) :=
  order.reverse.map (Action.withdraw,·)

/-- The steps confirmed when the journal stands at a phase and a position. -/
def Trace (order : List String) (phase : Phase) (position : Nat) (l : List (Action×String)) :
    Prop :=
  match phase with
  | .preparing => l=(forwardSteps order).take position
  | .activating => l=(forwardSteps order).take (order.length+position)
  | .sealed => l=forwardSteps order
  | .compensating => ∃cut, l=(forwardSteps order).take cut++(withdrawals order).take position
  | .quarantined => ∃cut, l=(forwardSteps order).take cut++withdrawals order

variable {n position : Nat} {phase : Phase} {l : List (Action×String)}

theorem take_next {α : Type} {l : List α} {a : α} (h : l[n]?=some a) :
    l.take n++[a]=l.take (n+1) := by
  rw [List.take_add_one,h]
  rfl

variable {order : List String} {id : String}

theorem forwardSteps_prepare (h : order[n]?=some id) :
    (forwardSteps order)[n]?=some (Action.prepare,id) := by
  have hn : n<(order.map (Action.prepare,·)).length := by
    rw [List.length_map]
    exact (List.getElem?_eq_some_iff.mp h).1
  rw [forwardSteps,List.getElem?_append_left hn,List.getElem?_map,h]
  rfl

theorem forwardSteps_activate (h : order[n]?=some id) :
    (forwardSteps order)[order.length+n]?=some (Action.activate,id) := by
  rw [forwardSteps,List.getElem?_append_right (by rw [List.length_map]; omega),List.length_map,
    Nat.add_sub_cancel_left,List.getElem?_map,h]
  rfl

theorem withdrawals_withdraw (h : order.reverse[n]?=some id) :
    (withdrawals order)[n]?=some (Action.withdraw,id) := by
  rw [withdrawals,List.getElem?_map,h]
  rfl

theorem forwardSteps_length (order : List String) :
    (forwardSteps order).length=order.length+order.length := by
  rw [forwardSteps,List.length_append,List.length_map,List.length_map]

theorem withdrawals_length (order : List String) : (withdrawals order).length=order.length := by
  rw [withdrawals,List.length_map,List.length_reverse]

theorem Trace.cut (h : Trace order phase position l) (hc : phase≠.compensating)
    (hq : phase≠.quarantined) : Trace order .compensating 0 l := by
  cases phase with
  | preparing => exact ⟨position,by rw [List.take_zero,List.append_nil]; exact h⟩
  | activating => exact ⟨order.length+position,by rw [List.take_zero,List.append_nil]; exact h⟩
  | sealed =>
    refine ⟨(forwardSteps order).length,?_⟩
    rw [List.take_zero,List.append_nil,List.take_length]
    exact h
  | compensating => exact absurd rfl hc
  | quarantined => exact absurd rfl hq

theorem Trace.advance {ι : Type} {plan : TransitPreparation ι}
    (h : Trace plan.activationOrder phase position l) (hid : (phase.order plan)[position]?=some id)
    (hs : phase≠.sealed) (hq : phase≠.quarantined) :
    let next := Journal.advance phase position plan.activationOrder.length
    Trace plan.activationOrder next.1 next.2 (l++[(phase.action,id)]) := by
  cases phase with
  | preparing =>
    have hid : plan.activationOrder[position]?=some id := hid
    have hl : l++[(Action.prepare,id)]=(forwardSteps plan.activationOrder).take (position+1) := by
      rw [show l=(forwardSteps plan.activationOrder).take position from h]
      exact take_next (forwardSteps_prepare hid)
    by_cases hdone : position+1=plan.activationOrder.length
    · simp only [Journal.advance,hdone,if_true]
      show l++[(Action.prepare,id)]=_
      rw [hl,hdone]
      rfl
    · simp only [Journal.advance,hdone,if_false]
      exact hl
  | activating =>
    have hid : plan.activationOrder[position]?=some id := hid
    have hl : l++[(Action.activate,id)]=
        (forwardSteps plan.activationOrder).take (plan.activationOrder.length+(position+1)) := by
      rw [show l=(forwardSteps plan.activationOrder).take
        (plan.activationOrder.length+position) from h]
      exact take_next (forwardSteps_activate hid)
    by_cases hdone : position+1=plan.activationOrder.length
    · simp only [Journal.advance,hdone,if_true]
      show l++[(Action.activate,id)]=_
      rw [hl,hdone,← forwardSteps_length,List.take_length]
    · simp only [Journal.advance,hdone,if_false]
      exact hl
  | compensating =>
    have hid : plan.activationOrder.reverse[position]?=some id := hid
    obtain ⟨cut,hcut⟩ := h
    have hl : l++[(Action.withdraw,id)]=(forwardSteps plan.activationOrder).take cut++
        (withdrawals plan.activationOrder).take (position+1) := by
      rw [hcut,List.append_assoc,take_next (withdrawals_withdraw hid)]
    by_cases hdone : position+1=plan.activationOrder.length
    · simp only [Journal.advance,hdone,if_true]
      refine ⟨cut,?_⟩
      show l++[(Action.withdraw,id)]=_
      rw [hl,hdone,← withdrawals_length,List.take_length]
    · simp only [Journal.advance,hdone,if_false]
      exact ⟨cut,hl⟩
  | sealed => exact absurd rfl hs
  | quarantined => exact absurd rfl hq

theorem advance_placed {size : Nat} (h : ¬phase.misplaced position size) (hs : phase≠.sealed)
    (hq : phase≠.quarantined) :
    ¬(Journal.advance phase position size).1.misplaced (Journal.advance phase position size).2
      size := by
  by_cases hdone : position+1=size
  all_goals cases phase with
    | sealed => exact absurd rfl hs
    | quarantined => exact absurd rfl hq
    | preparing | activating | compensating =>
      have hlt : position<size := Nat.not_le.mp h
      simp only [Journal.advance,hdone,if_true,if_false]
      first | exact Nat.not_le.mpr (by omega) | exact fun hne => hne rfl

section
variable {ι : Type} (digests : Digests) (plan : TransitPreparation ι) (j : Journal)

/-- The proof answers the command of a row, and the next row is stored for it. -/
structure Confirms (row next : CoordinationRow) (command : OfflineTransitCommand)
    (proof : TransitObservationProof) (now : Int) : Prop where
  step : offlineTransitStep digests plan row.toCoordinationBody=.ok (some command)
  checked : checkProof command proof row.receiptHighwater now=.ok ()
  stored : persist digests row.toCoordinationBody
    (Journal.advance row.phase row.position plan.activationOrder.length).1
    (Journal.advance row.phase row.position plan.activationOrder.length).2
    (row.receiptHighwater.insert proof.nodeId proof.reportSequence)=.ok next

/-- What an accepted call does to the journal. -/
inductive Moves : Journal→Option OfflineTransitCommand→Prop
  | keep {answer : Option OfflineTransitCommand}
      (h : ∀c∈answer, ∃row, j.row=some row ∧
        offlineTransitStep digests plan row.toCoordinationBody=.ok (some c)) : Moves j answer
  | begin_ {row : CoordinationRow} {answer : Option OfflineTransitCommand} (hnone : j.row=none)
      (hphase : row.phase=.preparing ∧ row.position=0)
      (hsound : bodyOf digests row plan=.ok row.toCoordinationBody)
      (h : offlineTransitStep digests plan row.toCoordinationBody=.ok answer) :
      Moves { j with row := some row } answer
  | confirm {row next : CoordinationRow} {command : OfflineTransitCommand}
      {proof : TransitObservationProof} {now : Int} {answer : Option OfflineTransitCommand}
      (hrow : j.row=some row) (hc : Confirms digests plan row next command proof now)
      (h : offlineTransitStep digests plan next.toCoordinationBody=.ok answer) :
      Moves ⟨some next,j.confirmed++[(command.action,command.nodeId)],j.used++[proof]⟩ answer
  | cut {row next : CoordinationRow} {answer : Option OfflineTransitCommand}
      (hrow : j.row=some row) (hphase : row.phase≠.compensating ∧ row.phase≠.quarantined)
      (hnext : persist digests row.toCoordinationBody .compensating 0 row.receiptHighwater=.ok next)
      (hsize : 0<plan.activationOrder.length)
      (h : ∀c∈answer, offlineTransitStep digests plan next.toCoordinationBody=.ok (some c)) :
      Moves { j with row := some next } answer

end

/-- The journal plans withdrawals only, or nothing. -/
def Journal.Stopped (j : Journal) : Prop :=
  ∃row, j.row=some row ∧ (row.phase=.compensating ∨ row.phase=.quarantined)

section
variable {ι : Type} {digest : PlanBody ι→String} {digests : Digests}
  {stageRow : TransitStageRow ι} {j j' : Journal} {answer : Option OfflineTransitCommand}
  {c : Circumstances}

theorem begin_moves (h : j.begin_ digest digests stageRow c=.ok (j',answer)) :
    Moves digests stageRow.body j j' answer ∧ Staged stageRow := by
  simp only [Journal.begin_,do_ok] at h
  obtain ⟨plan,hplan,-,-,hnone,command,hcommand,heq⟩ := h
  obtain ⟨rfl,rfl⟩ := Prod.mk.inj heq
  obtain ⟨rfl,hstaged⟩ := stage_ok hplan
  refine ⟨.begin_ (by simpa using hnone) ⟨rfl,rfl⟩ ?_ hcommand,hstaged⟩
  refine (bodyOf_ok _ _ _).mpr ⟨rfl,(by decide : counterOk 1),rfl,hstaged.forward.symm,
    hstaged.generation.symm,?_,?_,rfl⟩
  · intro r hr
    exact absurd hr (by simp [Table.rows])
  · exact Nat.not_le.mpr hstaged.size

theorem peek_moves (h : j.peek digest digests stageRow c=.ok (j',answer)) :
    Moves digests stageRow.body j j' answer ∧ Staged stageRow := by
  simp only [Journal.peek,do_ok] at h
  obtain ⟨plan,hplan,body,hbody,-,command,hcommand,heq⟩ := h
  obtain ⟨rfl,rfl⟩ := Prod.mk.inj heq
  obtain ⟨rfl,hstaged⟩ := stage_ok hplan
  obtain ⟨row,hrow,rfl⟩ := locked_row hbody
  refine ⟨.keep ?_,hstaged⟩
  rintro c rfl
  exact ⟨row,hrow,hcommand⟩

theorem confirm_moves {proof : TransitObservationProof} {verified : Bool}
    (h : j.confirm digest digests stageRow c proof verified=.ok (j',answer)) :
    Moves digests stageRow.body j j' answer ∧ Staged stageRow := by
  simp only [Journal.confirm,do_ok] at h
  obtain ⟨plan,hplan,body,hbody,-,step,hstep,h⟩ := h
  obtain ⟨rfl,hstaged⟩ := stage_ok hplan
  obtain ⟨row,hrow,rfl⟩ := locked_row hbody
  split at h
  · simp at h
  rename_i command
  simp only [do_ok] at h
  obtain ⟨hproof,-,next,hnext,after,hafter,heq⟩ := h
  obtain ⟨rfl,rfl⟩ := Prod.mk.inj heq
  exact ⟨.confirm hrow ⟨hstep,hproof,hnext⟩ hafter,hstaged⟩

theorem fail_moves (h : j.fail digest digests stageRow c=.ok (j',answer)) :
    Moves digests stageRow.body j j' answer ∧ j'.Stopped := by
  simp only [Journal.fail,bind_ok] at h
  obtain ⟨plan,hplan,body,hbody,h⟩ := h
  obtain ⟨rfl,hstaged⟩ := stage_ok hplan
  obtain ⟨row,hrow,rfl⟩ := locked_row hbody
  split at h
  · rename_i hq
    obtain ⟨rfl,rfl⟩ := Prod.mk.inj ((pure_ok _ _).mp h)
    exact ⟨.keep (by simp),row,hrow,.inr hq⟩
  rename_i hq
  split at h
  · rename_i hc
    simp only [do_ok] at h
    obtain ⟨command,hcommand,heq⟩ := h
    obtain ⟨rfl,rfl⟩ := Prod.mk.inj heq
    refine ⟨.keep ?_,row,hrow,.inl hc⟩
    rintro c rfl
    exact ⟨row,hrow,hcommand⟩
  · rename_i hc
    simp only [do_ok] at h
    obtain ⟨next,hnext,command,hcommand,heq⟩ := h
    obtain ⟨rfl,rfl⟩ := Prod.mk.inj heq
    refine ⟨.cut hrow ⟨hc,hq⟩ hnext hstaged.size ?_,next,rfl,.inl ?_⟩
    · rintro c rfl
      exact hcommand
    · exact congrArg CoordinationBody.phase (persist_ok hnext).2.1

theorem recovery_moves {state : StageState} {others : Except String Unit}
    (h : j.quarantineRecovery digest digests stageRow state others=.ok (j',answer)) :
    Moves digests stageRow.body j j' answer ∧ (j.row.isSome→j'.Stopped) := by
  simp only [Journal.quarantineRecovery,do_ok] at h
  obtain ⟨-,h⟩ := h
  split at h
  · rename_i hrow
    obtain ⟨rfl,rfl⟩ := Prod.mk.inj ((pure_ok _ _).mp h)
    exact ⟨.keep (by simp),fun hs => absurd hs (by simp [hrow])⟩
  rename_i row hrow
  split at h
  · rename_i hphase
    simp only [do_ok] at h
    obtain ⟨plan,hplan,body,hbody,next,hnext,heq⟩ := h
    obtain ⟨rfl,rfl⟩ := Prod.mk.inj heq
    obtain ⟨rfl,hstaged⟩ := verify_ok hplan
    obtain rfl := ((bodyOf_ok _ _ _).mp hbody).1
    have hopen : row.phase≠.compensating ∧ row.phase≠.quarantined := by
      rcases hphase with hp | hp | hp <;> rw [hp] <;> decide
    refine ⟨.cut hrow hopen hnext hstaged.size (by simp),fun _ => ⟨next,rfl,.inl ?_⟩⟩
    exact congrArg CoordinationBody.phase (persist_ok hnext).2.1
  · rename_i hphase
    obtain ⟨rfl,rfl⟩ := Prod.mk.inj ((pure_ok _ _).mp h)
    refine ⟨.keep (by simp),fun _ => ⟨row,hrow,?_⟩⟩
    cases hp : row.phase <;> simp [hp] at hphase ⊢

end

/-- The journal, its confirmed steps and its accepted proofs agree. -/
structure Coherent {ι : Type} (digests : Digests) (plan : TransitPreparation ι) (j : Journal) :
    Prop where
  before : j.row=none→j.confirmed=[] ∧ j.used=[]
  trace : ∀row, j.row=some row→Trace plan.activationOrder row.phase row.position j.confirmed
  sound : ∀row, j.row=some row→bodyOf digests row plan=.ok row.toCoordinationBody
  rising : j.used.Pairwise fun a b => a.nodeId=b.nodeId→a.reportSequence<b.reportSequence
  marks : ∀row, j.row=some row→∀u∈j.used,
    u.reportSequence≤(row.receiptHighwater.lookup u.nodeId).getD 0

namespace Coherent

variable {ι : Type} {digests : Digests} {plan : TransitPreparation ι} {j j' : Journal}
  {answer : Option OfflineTransitCommand}

theorem start : Coherent digests plan Journal.start := by
  constructor <;> simp [Journal.start]

variable {row next : CoordinationRow}

theorem of_row {confirmed : List (Action×String)} {used : List TransitObservationProof}
    (htrace : Trace plan.activationOrder row.phase row.position confirmed)
    (hsound : bodyOf digests row plan=.ok row.toCoordinationBody)
    (hrising : used.Pairwise fun a b => a.nodeId=b.nodeId→a.reportSequence<b.reportSequence)
    (hmarks : ∀u∈used, u.reportSequence≤(row.receiptHighwater.lookup u.nodeId).getD 0) :
    Coherent digests plan ⟨some row,confirmed,used⟩ := by
  refine ⟨nofun,?_,?_,hrising,?_⟩
  all_goals
    intro r hr
    obtain rfl := Option.some.inj hr
    assumption

theorem begun (h : Coherent digests plan j) (hnone : j.row=none)
    (hphase : row.phase=.preparing ∧ row.position=0)
    (hsound : bodyOf digests row plan=.ok row.toCoordinationBody) :
    Coherent digests plan { j with row := some row } := by
  obtain ⟨hconfirmed,hused⟩ := h.before hnone
  refine of_row ?_ hsound h.rising ?_
  · rw [hphase.1,hphase.2,hconfirmed]
    rfl
  · intro u hu
    rw [hused] at hu
    exact absurd hu List.not_mem_nil

theorem order_mem (h : (phase.order plan)[position]?=some id) : id∈plan.activationOrder := by
  have hmem := List.mem_of_getElem? h
  unfold Phase.order at hmem
  split at hmem
  · exact List.mem_reverse.mp hmem
  · exact hmem

theorem persisted {highwater : Table String Nat}
    (hsound : bodyOf digests row plan=.ok row.toCoordinationBody)
    (hnext : persist digests row.toCoordinationBody phase position highwater=.ok next)
    (hplaced : ¬phase.misplaced position plan.activationOrder.length)
    (hmarks : ∀r∈highwater.rows, r.1∈plan.activationOrder ∧ counterOk r.2) :
    bodyOf digests next plan=.ok next.toCoordinationBody := by
  obtain ⟨-,hrev,hdigest,hforward,hgeneration,-,-,-⟩ := (bodyOf_ok _ _ _).mp hsound
  obtain ⟨hlast,hbody,hjournal⟩ := persist_ok hnext
  refine (bodyOf_ok _ _ _).mpr ⟨rfl,?_,?_,?_,?_,?_,?_,hjournal.symm⟩ <;> rw [hbody]
  · simp only [counterOk,bool_ok]
    omega
  · exact hdigest
  · exact hforward
  · exact hgeneration
  · exact hmarks
  · exact hplaced

theorem confirmed (h : Coherent digests plan j)
    {command : OfflineTransitCommand} {proof : TransitObservationProof} {now : Int}
    (hrow : j.row=some row) (hc : Confirms digests plan row next command proof now) :
    Coherent digests plan
      ⟨some next,j.confirmed++[(command.action,command.nodeId)],j.used++[proof]⟩ := by
  have hsound := h.sound row hrow
  obtain ⟨-,-,-,-,-,hmarks,hplaced,-⟩ := (bodyOf_ok _ _ _).mp hsound
  obtain ⟨hs,hq,hnode,haction⟩ := offlineTransitStep_some hc.step
  obtain ⟨hid,hcounter,hhigh⟩ := checkProof_ok hc.checked
  obtain ⟨-,hbody,-⟩ := persist_ok hc.stored
  refine of_row ?_ ?_ ?_ ?_
  · have htrace := (h.trace row hrow).advance hnode hs hq
    rw [hbody,haction]
    exact htrace
  · refine persisted hsound hc.stored (advance_placed hplaced hs hq) ?_
    intro r hr
    rcases Table.lookup_insert_some.mp (Table.mem_rows.mp hr) with ⟨hk,hv⟩ | ⟨-,hold⟩
    · rw [hk,← hv,hid]
      refine ⟨order_mem hnode,?_⟩
      exact hcounter
    · exact hmarks r (Table.mem_rows.mpr hold)
  · rw [List.pairwise_append]
    refine ⟨h.rising,List.pairwise_singleton _ _,?_⟩
    intro u hu p hp hsame
    obtain rfl := List.mem_singleton.mp hp
    have hmark := h.marks row hrow u hu
    rw [hsame] at hmark
    omega
  · intro u hu
    rw [hbody]
    show u.reportSequence≤((row.receiptHighwater.insert proof.nodeId proof.reportSequence).lookup
      u.nodeId).getD 0
    rw [Table.lookup_insert_eq]
    rcases List.mem_append.mp hu with hu | hu
    · have hmark := h.marks row hrow u hu
      by_cases hsame : u.nodeId=proof.nodeId
      · rw [hsame] at hmark
        rw [if_pos hsame,Option.getD_some]
        omega
      · rw [if_neg hsame]
        exact hmark
    · obtain rfl := List.mem_singleton.mp hu
      rw [if_pos rfl,Option.getD_some]

theorem cut (h : Coherent digests plan j) (hrow : j.row=some row)
    (hphase : row.phase≠.compensating ∧ row.phase≠.quarantined)
    (hnext : persist digests row.toCoordinationBody .compensating 0 row.receiptHighwater=.ok next)
    (hsize : 0<plan.activationOrder.length) :
    Coherent digests plan { j with row := some next } := by
  have hsound := h.sound row hrow
  obtain ⟨-,-,-,-,-,hmarks,-,-⟩ := (bodyOf_ok _ _ _).mp hsound
  obtain ⟨-,hbody,-⟩ := persist_ok hnext
  refine of_row ?_ (persisted hsound hnext (Nat.not_le.mpr hsize) hmarks) h.rising ?_
  · rw [hbody]
    exact (h.trace row hrow).cut hphase.1 hphase.2
  · rw [hbody]
    exact h.marks row hrow

theorem moves (h : Coherent digests plan j) (hm : Moves digests plan j j' answer) :
    Coherent digests plan j' := by
  cases hm with
  | keep => exact h
  | begin_ hnone hphase hsound => exact h.begun hnone hphase hsound
  | confirm hrow hc => exact h.confirmed hrow hc
  | cut hrow hphase hnext hsize => exact h.cut hrow hphase hnext hsize

end Coherent

namespace Moves

variable {ι : Type} {digests : Digests} {plan : TransitPreparation ι} {j j' : Journal}
  {answer : Option OfflineTransitCommand}

theorem stopped (hm : Moves digests plan j j' answer) (hs : j.Stopped) : j'.Stopped := by
  obtain ⟨row,hrow,hphase⟩ := hs
  cases hm with
  | keep => exact ⟨row,hrow,hphase⟩
  | begin_ hnone =>
    rw [hrow] at hnone
    exact absurd hnone (by simp)
  | @confirm r next command proof now _ hr hconfirms =>
    obtain rfl := Option.some.inj (hrow.symm.trans hr)
    have hq := (offlineTransitStep_some hconfirms.step).2.1
    have hc : row.phase=.compensating := hphase.resolve_right hq
    refine ⟨next,rfl,?_⟩
    rw [(persist_ok hconfirms.stored).2.1]
    show (Journal.advance row.phase row.position plan.activationOrder.length).1=_ ∨ _
    rw [hc]
    unfold Journal.advance
    split
    · exact .inr rfl
    · exact .inl rfl
  | cut hr hopen =>
    obtain rfl := Option.some.inj (hrow.symm.trans hr)
    rcases hphase with hp | hp
    · exact absurd hp hopen.1
    · exact absurd hp hopen.2

variable {c : OfflineTransitCommand}

theorem answered (hm : Moves digests plan j j' answer)
    (hc : c∈answer) : ∃row, j'.row=some row ∧
      offlineTransitStep digests plan row.toCoordinationBody=.ok (some c) := by
  cases hm with
  | keep h => exact h c hc
  | @begin_ row _ _ _ _ h =>
    obtain rfl := hc
    exact ⟨row,rfl,h⟩
  | @confirm _ next _ _ _ _ _ _ h =>
    obtain rfl := hc
    exact ⟨next,rfl,h⟩
  | @cut _ next _ _ _ _ _ h => exact ⟨next,rfl,h c hc⟩

theorem withdraws (hm : Moves digests plan j j' answer) (hs : j'.Stopped)
    (hc : c∈answer) : c.action=.withdraw := by
  obtain ⟨row,hrow,hstep⟩ := hm.answered hc
  obtain ⟨r,hr,hphase⟩ := hs
  obtain rfl := Option.some.inj (hrow.symm.trans hr)
  obtain ⟨-,hq,-,haction⟩ := offlineTransitStep_some hstep
  rw [haction,hphase.resolve_right hq]
  rfl

theorem activates (hm : Moves digests plan j j' answer) (h : Coherent digests plan j')
    (hc : c∈answer) (ha : c.action=.activate) :
    ∃n, j'.confirmed=plan.activationOrder.map (Action.prepare,·)++
      (plan.activationOrder.take n).map (Action.activate,·) := by
  obtain ⟨row,hrow,hstep⟩ := hm.answered hc
  obtain ⟨-,-,-,haction⟩ := offlineTransitStep_some hstep
  have hphase : row.phase=.activating := by
    rw [ha] at haction
    cases hp : row.phase <;> simp [hp,Phase.action] at haction ⊢
  have htrace := h.trace row hrow
  rw [hphase] at htrace
  refine ⟨row.position,?_⟩
  rw [show j'.confirmed=_ from htrace,forwardSteps,List.take_append,List.length_map,
    List.take_of_length_le (by rw [List.length_map]; omega),Nat.add_sub_cancel_left,List.map_take]

end Moves

section
variable {ι : Type} {digest : PlanBody ι→String} {digests : Digests}
  {stageRow : TransitStageRow ι} {j j' : Journal}
  {call : Call} {answer : Option OfflineTransitCommand} {l : List Call}
  {row : CoordinationRow}

theorem step_moves (h : j.step digest digests stageRow call=.ok (j',answer)) :
    Moves digests stageRow.body j j' answer := by
  cases call with
  | begin_ c => exact (begin_moves h).1
  | peek c => exact (peek_moves h).1
  | confirm c proof verified => exact (confirm_moves h).1
  | fail c => exact (fail_moves h).1
  | quarantineRecovery state others => exact (recovery_moves h).1

/-- What every move keeps holds after every run. -/
theorem kept_run {P : Journal→Prop} (hr : Run (Step digest digests stageRow) j l j') (h : P j)
    (hkeep : ∀{a b answer}, Moves digests stageRow.body a b answer→P a→P b) : P j' := by
  refine hr.invariant P ?_ h
  intro a call b hs ha
  rcases hs with ⟨answer,hok⟩ | ⟨-,rfl⟩
  · exact hkeep (step_moves hok) ha
  · exact ha

theorem confirm_terminal (hrow : j.row=some row)
    (hphase : row.phase=.sealed ∨ row.phase=.quarantined) (c : Circumstances)
    (proof : TransitObservationProof) (verified : Bool) (out : Journal×Option OfflineTransitCommand) :
    j.confirm digest digests stageRow c proof verified≠.ok out := by
  intro h
  simp only [Journal.confirm,do_ok] at h
  obtain ⟨plan,-,body,hbody,-,step,hstep,h⟩ := h
  obtain ⟨r,hr,rfl⟩ := locked_row hbody
  obtain rfl := Option.some.inj (hrow.symm.trans hr)
  rw [offlineTransitStep_terminal hphase] at hstep
  obtain rfl := Except.ok.inj hstep
  simp at h

theorem quarantined_stays (hrow : j.row=some row) (hphase : row.phase=.quarantined)
    (h : j.step digest digests stageRow call=.ok (j',answer)) : j'=j ∧ answer=none := by
  have hm := step_moves h
  cases hm with
  | keep hkeep =>
    refine ⟨rfl,?_⟩
    cases answer with
    | none => rfl
    | some c =>
      obtain ⟨r,hr,hstep⟩ := hkeep c rfl
      obtain rfl := Option.some.inj (hrow.symm.trans hr)
      exact absurd hphase (offlineTransitStep_some hstep).2.1
  | begin_ hnone =>
    rw [hrow] at hnone
    exact absurd hnone (by simp)
  | confirm hr hc =>
    obtain rfl := Option.some.inj (hrow.symm.trans hr)
    exact absurd hphase (offlineTransitStep_some hc.step).2.1
  | cut hr hopen =>
    obtain rfl := Option.some.inj (hrow.symm.trans hr)
    exact absurd hphase hopen.2

end

/-- The order of a coordination, in any state of any run. -/
theorem transit_order {ι : Type} (digest : PlanBody ι→String) (digests : Digests)
    (stageRow : TransitStageRow ι) {l : List Call} {j : Journal}
    (hl : Run (Step digest digests stageRow) Journal.start l j) :
    let order := stageRow.body.activationOrder
    (∃cut n, j.confirmed=(order.map (Action.prepare,·)++order.map (Action.activate,·)).take cut++
      (order.reverse.map (Action.withdraw,·)).take n) ∧
    (∀call j' c, j.step digest digests stageRow call=.ok (j',some c)→c.action=.activate→
      ∃n, j'.confirmed=order.map (Action.prepare,·)++(order.take n).map (Action.activate,·)) ∧
    (∀call j₁ answer m j₂, ((∃c, call=.fail c) ∨
        j.row.isSome ∧ ∃state others, call=.quarantineRecovery state others)→
      j.step digest digests stageRow call=.ok (j₁,answer)→
      Run (Step digest digests stageRow) j₁ m j₂→
      (∀c∈answer, c.action=.withdraw) ∧ ∀call j₃ c,
        j₂.step digest digests stageRow call=.ok (j₃,some c)→c.action=.withdraw) ∧
    (∀row, j.row=some row→
      (row.phase=.quarantined→∀call j' answer,
        j.step digest digests stageRow call=.ok (j',answer)→j'=j ∧ answer=none) ∧
      (row.phase=.sealed ∨ row.phase=.quarantined→∀c proof verified out,
        j.confirm digest digests stageRow c proof verified≠.ok out)) ∧
    (j.used.Pairwise fun a b => a≠b ∧ (a.nodeId=b.nodeId→a.reportSequence<b.reportSequence)) ∧
    (∀row, j.row=some row→bodyOf digests row stageRow.body=.ok row.toCoordinationBody) := by
  have hcoherent : Coherent digests stageRow.body j :=
    kept_run hl .start fun hm h => h.moves hm
  refine ⟨?_,?_,?_,?_,?_,hcoherent.sound⟩
  · cases hrow : j.row with
    | none => exact ⟨0,0,(hcoherent.before hrow).1⟩
    | some row =>
      have htrace := hcoherent.trace row hrow
      cases hp : row.phase with
      | compensating =>
        rw [hp] at htrace
        obtain ⟨cut,hcut⟩ := htrace
        exact ⟨cut,row.position,hcut⟩
      | quarantined =>
        rw [hp] at htrace
        obtain ⟨cut,hcut⟩ := htrace
        refine ⟨cut,(withdrawals stageRow.body.activationOrder).length,?_⟩
        rw [hcut]
        exact congrArg _ List.take_length.symm
      | preparing | activating | sealed =>
        obtain ⟨cut,hcut⟩ := htrace.cut (by rw [hp]; decide) (by rw [hp]; decide)
        exact ⟨cut,0,hcut⟩
  · intro call j' c hstep ha
    have hm := step_moves hstep
    exact hm.activates (hcoherent.moves hm) rfl ha
  · intro call j₁ answer m j₂ hcall hstep hm
    have hmoves := step_moves hstep
    have hstopped : j₁.Stopped := by
      rcases hcall with ⟨c,rfl⟩ | ⟨hsome,state,others,rfl⟩
      · exact (fail_moves hstep).2
      · exact (recovery_moves hstep).2 hsome
    refine ⟨fun c hc => hmoves.withdraws hstopped hc,?_⟩
    intro call j₃ c hlater
    have hlast := step_moves hlater
    exact hlast.withdraws (hlast.stopped (kept_run hm hstopped Moves.stopped)) rfl
  · intro row hrow
    exact ⟨fun hq call j' answer hstep => quarantined_stays hrow hq hstep,
      fun hphase c proof verified out => confirm_terminal hrow hphase c proof verified out⟩
  · refine hcoherent.rising.imp ?_
    intro a b hab
    refine ⟨?_,hab⟩
    rintro rfl
    exact absurd (hab rfl) (Nat.lt_irrefl _)

def hop (id : String) (role : HopRole) (port : Nat) : HopBinding :=
  ⟨"a:"++id,id,role,.tcp,1,1,⟨id,role,.tcp,.tcp,"10.0.0.1",port⟩,none,none⟩

/-- Digests that tell plans, journals and commands apart. -/
def planText (b : PlanBody Unit) : String :=
  ":".intercalate ("plan"::b.forwardId::b.pathDigest::toString b.deploymentGeneration::
    b.activationOrder++b.assignments.map HopBinding.assignmentId)

def textDigests : Digests where
  journal b := ":".intercalate ("journal"::b.planDigest::toString b.phase.ctorIdx::
    toString b.position::toString b.revision::b.receiptHighwater.rows.map fun r => r.1++toString r.2)
  command b := ":".intercalate ("command"::toString b.action.ctorIdx::b.planDigest::b.nodeId::
    toString b.revision::b.assignments.map fun a => a.assignmentId++toString a.port)

/-- Three nodes, the egress first to be activated. -/
def aPlan : PlanBody Unit :=
  ⟨"scope","forward",1,1,"profile","path",90000,["c","b","a"],
    [hop "a" .ingress 443,hop "b" .transit 9001,hop "c" .egress 9002],[]⟩

def aStage : TransitStageRow Unit :=
  ⟨"forward",1,1,"scope","actor",.reserved,90000,planText aPlan,⟨aPlan,planText aPlan⟩,1000⟩

def someCircumstances : Circumstances :=
  ⟨"actor","scope",.reserved,5000,fun _ => some 1,fun _ => some ⟨some "forward",1,1⟩⟩

/-- What a node reports of the command of one revision. -/
def aProof (node : String) (revision port : Nat) : TransitObservationProof :=
  ⟨textDigests.command ⟨.prepare,"forward",1,planText aPlan,node,revision,
      [⟨"a:"++node,.tcp,1,1,.tcp,port⟩]⟩,
    node,.prepare,7,4000,[⟨"a:"++node,1,1,1,.prepared⟩]⟩

/-- Two nodes are prepared, then the coordination fails. -/
def failedCalls : List Call :=
  [.begin_ someCircumstances,.confirm someCircumstances (aProof "c" 1 9002) true,
    .confirm someCircumstances (aProof "b" 2 9001) true,.fail someCircumstances]

theorem transit_order_failed : ∃j,
    Run (Step planText textDigests aStage) Journal.start failedCalls j ∧
    j.confirmed=[(Action.prepare,"c"),(Action.prepare,"b")] ∧
    j.used=[aProof "c" 1 9002,aProof "b" 2 9001] ∧
    ∃row, j.row=some row ∧ bodyOf textDigests row aStage.body=.ok row.toCoordinationBody := by
  let next (j : Journal) (c : Call) : Option Journal :=
    (j.step planText textDigests aStage c).toOption.map (·.1)
  have hnext : ∀j c j', next j c=some j'→Step planText textDigests aStage j c j' := by
    intro j c j' h
    obtain ⟨⟨k,answer⟩,hok,rfl⟩ := Option.map_eq_some_iff.mp h
    exact .inl ⟨answer,(toOption_ok _ _).mp hok⟩
  have hrun : ∃j∈failedCalls.foldlM next Journal.start,
      j.confirmed=[(Action.prepare,"c"),(Action.prepare,"b")] ∧
        j.used=[aProof "c" 1 9002,aProof "b" 2 9001] ∧ j.row.isSome := by
    decide +kernel
  obtain ⟨j,hj,hconfirmed,hused,hsome⟩ := hrun
  have hr := Run.of_foldlM hnext hj
  obtain ⟨row,hrow⟩ := Option.isSome_iff_exists.mp hsome
  obtain ⟨-,-,-,-,-,hsound⟩ := transit_order _ _ _ hr
  exact ⟨j,hr,hconfirmed,hused,row,hrow,hsound row hrow⟩

end TuneX.Control.Transit
