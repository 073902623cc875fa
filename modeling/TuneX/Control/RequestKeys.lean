import TuneX.Control.Revisions

namespace TuneX.Control

open Framework

variable {β ω ρ δ : Type} {p : Ports β ω ρ δ} {db db' : Database β ω ρ δ}
  {l : List (KeyedLabel (Attempt ω) (Response ρ) Error)}
  {e : KeyedLabel (Attempt ω) (Response ρ) Error} [DecidableEq δ]

/-- A request by what its digest is taken of. -/
def Attempt.content (a : Attempt ω) : Content ω := a.command.content a.scope

/-- At most one request commits under a key. Once one has, a request under the key fails or gets its
response; a request with another content fails, and with a conflict unless a check before that one
refuses it. A request that fails or rolls back changes nothing, and a key without a commit that no
open transaction holds can be used. -/
theorem request_committed_once (hd : Function.Injective p.digest) {w : World}
    {m : ActorId→ScopeId→Bool} {b : β}
    (hrun : Run p.service.Moves (Database.initial w m b) l db) (hstep : p.service.Moves db e db') :
    ((l++[e]).filterMap p.service.committed).Nodup ∧
    (∀tx c r a, .commit tx c r∈l→p.service.key a=p.service.key c→
      (∀tx', e≠.start tx' a) ∧ (∀tx' r', e≠.commit tx' a r') ∧
      (∀r', e=.replay a r' → r'=r ∧ a.content=c.content ∧ db'=db) ∧
      (∀x, e=.fail a x→p.service.claim db a=.error x ∧ db'=db) ∧
      (a.content≠c.content→∃row, db.rows.lookup (p.service.key a)=some row ∧
        p.service.claim db a=(do
          p.admits a db.store
          reject row.invalidated .recoveryReplayRequiresReview
          .error .idempotencyConflict))) ∧
    (∀tx a, e=.abort tx a→db'.store=db.store ∧ db'.rows=db.rows ∧ db'.held.lookup tx=none) ∧
    ∀tx a, (∀tx' c r, .commit tx' c r∈l→p.service.key c≠p.service.key a)→
      p.service.Free db (p.service.key a)→db.held.lookup tx=none→p.admits a db.store=.ok ()→
      ∃db₂, p.service.Moves db (.start tx a) db₂ := by
  have hrec := KeyedService.recorded_run hrun rfl rfl
  have hnext := hrec.step hstep
  refine ⟨hnext.once,?_,?_,?_⟩
  · intro tx c r a hc hk
    obtain ⟨hstart,hcommit,hreplay⟩ := hrec.answer hc hk hstep
    refine ⟨hstart,hcommit,?_,?_,?_⟩
    · rintro r' rfl
      obtain ⟨hr,hsame⟩ := hreplay r' rfl
      refine ⟨hr,hd hsame,?_⟩
      cases hstep with
      | replay => rfl
    · rintro x rfl
      obtain ⟨hdb,hx⟩ := KeyedService.fail_claim hstep
      exact ⟨hx,hdb⟩
    · intro hne
      have hdigest : p.service.digest a≠p.service.digest c := fun he => hne (hd he)
      exact hrec.differs hc hk hdigest
  · rintro tx a rfl
    cases hstep with
    | abort => exact ⟨rfl,rfl,AList.lookup_erase tx _⟩
  · intro tx a hnone hfree htx hin
    exact ⟨_,hrec.usable hnone hfree htx hin⟩

/-- The key of the creation, used for a removal. -/
def reusingRequest : Attempt Empty := ⟨7,0,1,.remove 1 1,0,3⟩

/-- The store when no actor is a member of the scope any more. -/
def withoutMembers (db : Database Unit Empty Unit (Content Empty)) :
    Database Unit Empty Unit (Content Empty) :=
  { db with store := { db.store with member := fun _ _ => false } }

theorem createRequest_run : ∃r db, Run plainPorts.service.Moves
    (Database.initial openWorld (fun _ _ => true) ())
      [.other,.start 0 createRequest,.commit 0 createRequest r] db ∧ db.held=∅ ∧
    plainPorts.service.claim db reusingRequest=.error .idempotencyConflict ∧
    plainPorts.service.claim (withoutMembers db) reusingRequest=.error .notFound := by
  have hrun : ((performs (State.initial openWorld) startRun).bind fun s =>
      (plainPorts.service.submit (plainStore s) createRequest).toOption.map fun x =>
        (decide (plainPorts.service.claim x.1 reusingRequest=.error .idempotencyConflict),
          decide (plainPorts.service.claim (withoutMembers x.1) reusingRequest=.error .notFound)))=
      some (true,true) := by
    decide +kernel
  simp only [do_some,decide_eq_true_eq,toOption_ok] at hrun
  obtain ⟨s,hs,⟨db,r⟩,hx,hconflict,hgone⟩ := hrun
  obtain ⟨hheld,⟨hsome,-⟩ | hcreate⟩ := KeyedService.submit_run rfl hx
  · cases hsome
  · exact ⟨r,db,(plainStore_run hs).trans hcreate,hheld,hconflict,hgone⟩

theorem request_committed_once_reused : ∃r db, Run plainPorts.service.Moves
    (Database.initial openWorld (fun _ _ => true) ())
      [.other,.start 0 createRequest,.commit 0 createRequest r] db ∧
    plainPorts.service.Moves db (.fail reusingRequest .idempotencyConflict) db ∧
    plainPorts.service.claim db reusingRequest=.error .idempotencyConflict := by
  obtain ⟨r,db,hrun,hheld,hconflict,-⟩ := createRequest_run
  have hfree : plainPorts.service.Free db (plainPorts.service.key reusingRequest) := by
    intro tx a ha
    simp [hheld] at ha
  have hstep := KeyedService.Moves.fail hfree hconflict
  have honce := request_committed_once Function.injective_id hrun hstep
  have hafter := honce.2.1 0 createRequest r reusingRequest (by simp) rfl
  exact ⟨r,db,hrun,hstep,(hafter.2.2.2.1 _ rfl).1⟩

/-- The conflict is not always what the caller sees: an actor who has left the scope is refused
before the key is read. -/
theorem request_conflict_masked : ∃r db, Run plainPorts.service.Moves
    (Database.initial openWorld (fun _ _ => true) ())
      [.other,.start 0 createRequest,.commit 0 createRequest r,.other] db ∧
    plainPorts.service.key reusingRequest=plainPorts.service.key createRequest ∧
    reusingRequest.content≠createRequest.content ∧
    plainPorts.service.Moves db (.fail reusingRequest .notFound) db ∧
    ∀db', ¬plainPorts.service.Moves db (.fail reusingRequest .idempotencyConflict) db' := by
  obtain ⟨r,db,hrun,hheld,-,hgone⟩ := createRequest_run
  have hfree : plainPorts.service.Free (withoutMembers db) (plainPorts.service.key reusingRequest) := by
    intro tx a ha
    simp [withoutMembers,hheld] at ha
  have hleave : plainPorts.service.Moves db .other (withoutMembers db) :=
    .other (Background.members _ (.refl _))
  refine ⟨r,withoutMembers db,hrun.snoc hleave,rfl,by decide,.fail hfree hgone,?_⟩
  intro db' hm
  have hclaim := (KeyedService.fail_claim hm).2
  rw [hgone] at hclaim
  cases hclaim

end TuneX.Control
