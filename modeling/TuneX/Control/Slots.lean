import TuneX.Control.Frame

namespace TuneX.Control

open Framework

namespace State

variable {s t u : State} {f next current : Forward} {g : Nat} {k j : SlotKey}

theorem slot_congr (h : t.slots=s.slots) (k : SlotKey) : t.slot k=s.slot k := by
  unfold slot
  rw [h]

theorem slot_take (s : State) (owner : ForwardId) (k : SlotKey) (g : Nat) (j : SlotKey) :
    (s.take owner k g).slot j=if j=k then ⟨some owner,(s.slot k).fence+1,g⟩ else s.slot j := by
  unfold take
  change ((s.slots.insert k _).lookup j).getD _=_
  rw [Table.lookup_insert_eq]
  split_ifs with h
  · rfl
  · rfl

theorem slot_release (s : State) (id : ForwardId) (keep : SlotKey→Bool) (k : SlotKey) :
    (s.release id keep).slot k=if (s.slot k).owner=some id && !keep k then
      { s.slot k with owner := none } else s.slot k := by
  unfold release
  change ((s.slots.alter _).lookup k).getD _=_
  rw [Table.lookup_alter]
  unfold slot
  cases s.slots.lookup k with
  | none => simp
  | some row => rfl

/-- A loop of reservations at different keys: every key was free or already owned, and is then
owned under the next fence; the other slots are as before. -/
theorem takes_spec {α β : Type} (st : β→State) (owner : ForwardId) (key : α→SlotKey)
    (gen : SlotRow→Nat) {step : β→α→Except Error β}
    (hstep : ∀b a c, step b a=.ok c→(((st b).slot (key a)).owner=none ∨
      ((st b).slot (key a)).owner=some owner) ∧
      st c=(st b).take owner (key a) (gen ((st b).slot (key a))))
    {l : List α} (hnd : (l.map key).Nodup) {b c : β} (h : l.foldlM step b=.ok c) :
    (∀k∈l.map key, ((st b).slot k).owner=none ∨ ((st b).slot k).owner=some owner) ∧
    ∀k, (st c).slot k=if k∈l.map key then
      ⟨some owner,((st b).slot k).fence+1,gen ((st b).slot k)⟩ else (st b).slot k := by
  induction l generalizing b with
  | nil =>
    simp only [List.foldlM_nil,pure_ok] at h
    simp [h]
  | cons a l ih =>
    simp only [List.foldlM_cons,bind_ok] at h
    obtain ⟨d,hd,hc⟩ := h
    simp only [List.map_cons,List.nodup_cons] at hnd
    obtain ⟨hfree,htake⟩ := hstep b a d hd
    obtain ⟨howner,hslot⟩ := ih hnd.2 hc
    have hother : ∀k, k≠key a→(st d).slot k=(st b).slot k := by
      intro k hk
      rw [htake,slot_take,if_neg hk]
    constructor
    · intro k hk
      cases List.mem_cons.mp hk with
      | inl he => exact he ▸ hfree
      | inr hm =>
        have hne : k≠key a := fun he => hnd.1 (he ▸ hm)
        exact hother k hne ▸ howner k hm
    · intro k
      rw [hslot]
      by_cases hk : k=key a
      · subst hk
        rw [if_neg hnd.1,htake,slot_take,if_pos rfl]
        simp
      · rw [hother k hk]
        simp [hk]

def specKeys (p : Spec) : List SlotKey := p.protocols.map p.slotKey

theorem specKeys_nodup {p : Spec} (h : p.protocols.Nodup) : (specKeys p).Nodup := by
  refine h.map ?_
  intro a b hab
  exact (SlotKey.mk.inj hab).2.1

theorem reserve_spec (hnd : f.spec.protocols.Nodup) (h : s.reserve f=.ok t) :
    (∀k∈specKeys f.spec, (s.slot k).owner=none) ∧
    ∀k, t.slot k=if k∈specKeys f.spec then ⟨some f.id,(s.slot k).fence+1,1⟩ else s.slot k := by
  simp only [reserve,do_ok] at h
  obtain ⟨u,hu,-,rfl⟩ := h
  have hkeys := specKeys_nodup hnd
  have hspec := takes_spec id f.id f.spec.slotKey (fun _ => 1)
    (fun b a c hc => ⟨.inl (reserveSlot_ok.mp hc).1,(reserveSlot_ok.mp hc).2.2.symm⟩) hkeys hu
  -- A new Forward takes no slot that is already its own, so freedom is shown apart.
  have hfree : ∀l : List Protocol, (l.map f.spec.slotKey).Nodup→∀b c,
      l.foldlM (reserveSlot f) b=.ok c→∀k∈l.map f.spec.slotKey, (b.slot k).owner=none := by
    intro l
    induction l with
    | nil => simp
    | cons p l ih =>
      intro hl b c hc k hk
      simp only [List.foldlM_cons,bind_ok] at hc
      obtain ⟨d,hd,hc⟩ := hc
      obtain ⟨hp,-,hd⟩ := reserveSlot_ok.mp hd
      simp only [List.map_cons,List.nodup_cons] at hl
      cases List.mem_cons.mp hk with
      | inl he => exact he ▸ hp
      | inr hm =>
        have hne : k≠f.spec.slotKey p := fun he => hl.1 (he ▸ hm)
        have := ih hl.2 d c hc k hm
        rwa [← hd,slot_take,if_neg hne] at this
  exact ⟨hfree _ hkeys s _ hu,hspec.2⟩

theorem transition_spec (hnd : next.spec.protocols.Nodup) (h : s.transition current next=.ok t) :
    (∀k∈specKeys next.spec, (s.slot k).owner=none ∨ (s.slot k).owner=some next.id) ∧
    ∀k, t.slot k=if k∈specKeys next.spec then ⟨some next.id,(s.slot k).fence+1,
      nextGeneration next.revision (s.slot k).generation
        (s.ownedGenerations current.spec.nodeId current.id)⟩ else s.slot k := by
  refine takes_spec id next.id next.spec.slotKey (fun row => nextGeneration next.revision
    row.generation (s.ownedGenerations current.spec.nodeId current.id)) ?_ (specKeys_nodup hnd) h
  intro b a c hc
  obtain ⟨ho,-,-,he⟩ := transitionSlot_ok.mp hc
  exact ⟨ho,he.symm⟩

theorem reserveRelay_spec {resources : List RelayResource} {b : State×List Reserved}
    (hnd : (resources.map RelayResource.key).Nodup) (h : s.reserveRelay f resources g=.ok b) :
    (∀k∈resources.map RelayResource.key, (s.slot k).owner=none ∨ (s.slot k).owner=some f.id) ∧
    ∀k, b.1.slot k=if k∈resources.map RelayResource.key then ⟨some f.id,(s.slot k).fence+1,g⟩
      else s.slot k := by
  refine takes_spec Prod.fst f.id RelayResource.key (fun _ => g) ?_ hnd (reserveRelay_ok.mp h).2.1
  intro b a c hc
  obtain ⟨ho,-,he⟩ := reserveRelaySlot_ok.mp hc
  exact ⟨ho,by rw [← he]⟩

theorem reserveRelay_reserved {resources : List RelayResource} {b : State×List Reserved}
    (hnd : (resources.map RelayResource.key).Nodup) (h : s.reserveRelay f resources g=.ok b) :
    b.2=resources.map fun r => ⟨r,(s.slot r.key).fence+1⟩ := by
  have hfold : ∀l : List RelayResource, (l.map RelayResource.key).Nodup→
      ∀c d : State×List Reserved, l.foldlM (reserveRelaySlot f g) c=.ok d→
        d.2=c.2++l.map fun r => ⟨r,(c.1.slot r.key).fence+1⟩ := by
    intro l
    induction l with
    | nil =>
      intro _ c d hd
      simp only [List.foldlM_nil,pure_ok] at hd
      simp [hd]
    | cons r l ih =>
      intro hl c d hd
      simp only [List.foldlM_cons,bind_ok] at hd
      obtain ⟨e,he,hd⟩ := hd
      obtain ⟨-,-,he⟩ := reserveRelaySlot_ok.mp he
      simp only [List.map_cons,List.nodup_cons] at hl
      have hsame : (l.map fun r' => (⟨r',(e.1.slot r'.key).fence+1⟩ : Reserved))=
          l.map fun r' => ⟨r',(c.1.slot r'.key).fence+1⟩ := by
        refine List.map_congr_left fun r' hr' => ?_
        have hne : r'.key≠r.key := fun hk => hl.1 (hk ▸ List.mem_map_of_mem hr')
        rw [← he]
        dsimp only
        rw [slot_take,if_neg hne]
      rw [ih hl.2 e d hd,hsame,← he]
      simp
  have := hfold _ hnd _ _ (reserveRelay_ok.mp h).2.1
  simpa using this

end State

end TuneX.Control
