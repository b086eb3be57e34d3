import BleSim.Calls

/-!
# Steps that leave values alone

A step that is no call on a value keeps what every characteristic shows. A characteristic it
creates is empty and silent, and no registration is lost.
-/

namespace BleSim

open Outcomes WriteOnce

/-- The fields of a characteristic that say what it shows. -/
def Characteristic.shown (x : Characteristic) : Ptr Bytes × UInt32 × Bool :=
  (x.value, x.valueSize, x.notifying)

/-- Everything that was shown is still shown, and what is new is empty and silent. -/
structure KeepsCells (σ σ' : State) : Prop where
  finalised : σ'.finalised = σ.finalised
  shown : ∃ new, σ'.characteristics.map Characteristic.shown =
    σ.characteristics.map Characteristic.shown ++ new ∧ ∀ f ∈ new, f = (.null, 0, false)
  live : ∀ id ∈ σ.buffers.live, id ∈ σ'.buffers.live
  fails : σ'.buffers.fails = σ.buffers.fails
  outOfMemory : σ'.bus.outOfMemory = σ.bus.outOfMemory
  registered : ∀ o ∈ σ.registeredObjects, o ∈ σ'.registeredObjects

namespace KeepsCells

variable {σ σ' σ'' : State}

/-- A change elsewhere. -/
theorem of_same (hfin : σ'.finalised = σ.finalised)
    (hshown : σ'.characteristics.map Characteristic.shown =
      σ.characteristics.map Characteristic.shown)
    (hlive : σ'.buffers.live = σ.buffers.live) (hfails : σ'.buffers.fails = σ.buffers.fails)
    (hmemory : σ'.bus.outOfMemory = σ.bus.outOfMemory)
    (hregistered : ∀ o ∈ σ.registeredObjects, o ∈ σ'.registeredObjects) : KeepsCells σ σ' :=
  ⟨hfin, ⟨[], by rw [hshown, List.append_nil], by simp⟩, fun _ hid => hlive ▸ hid, hfails, hmemory,
    hregistered⟩

theorem refl (σ : State) : KeepsCells σ σ := .of_same rfl rfl rfl rfl rfl fun _ ho => ho

theorem trans (h : KeepsCells σ σ') (h' : KeepsCells σ' σ'') : KeepsCells σ σ'' := by
  obtain ⟨new, hshown, hnew⟩ := h.shown
  obtain ⟨new', hshown', hnew'⟩ := h'.shown
  refine ⟨h'.finalised.trans h.finalised, ⟨new ++ new', ?_, ?_⟩,
    fun id hid => h'.live id (h.live id hid), h'.fails.trans h.fails,
    h'.outOfMemory.trans h.outOfMemory, fun o ho => h'.registered o (h.registered o ho)⟩
  · rw [hshown', hshown, List.append_assoc]
  · intro f hf
    exact (List.mem_append.mp hf).elim (hnew f) (hnew' f)

theorem sendReply (σ : State) (reply : Option Message) : KeepsCells σ (sendReply reply σ) := by
  cases reply with
  | none => exact refl σ
  | some reply => exact .of_same rfl rfl rfl rfl rfl fun _ ho => ho

theorem setNode (σ : State) (kind : Kind) (c : ℕ) (n : Node) :
    KeepsCells σ (σ.setNode kind c n) := by
  refine .of_same (by simp) ?_ (by simp) (by simp) (by simp) fun o ho => by
    simpa [State.registeredObjects] using ho
  cases kind with
  | characteristic => exact State.map_modify_same _ _ _ _ fun _ => rfl
  | _ => rfl

theorem setChildren (σ : State) (kind : Kind) (p : ℕ) (children : Children) :
    KeepsCells σ (σ.setChildren kind p children) := by
  refine .of_same (by simp) ?_ (by simp) (by simp) (by simp) fun o ho => by
    simpa [State.registeredObjects] using ho
  cases kind with
  | descriptor => exact State.map_modify_same _ _ _ _ fun _ => rfl
  | _ => rfl

/-- A change by a step that is neither a call on a value nor a finalisation. -/
theorem of_change {op : Op} (hchange : Change op σ σ') (hvalues : ¬ op.OnValues)
    (hfini : op.NoFini) : KeepsCells σ σ' := by
  cases hchange with
  | createDevice => exact .of_same rfl rfl rfl rfl rfl fun _ ho => ho
  | createService => exact .of_same rfl rfl rfl rfl rfl fun _ ho => ho
  | createCharacteristic =>
    -- the new cell comes last and is empty
    refine ⟨rfl, ⟨[(.null, 0, false)], ?_, by simp⟩, fun _ hid => hid, rfl, rfl, fun _ ho => ho⟩
    simp [luaiCreateCharacteristic, characteristicInit, Characteristic.shown]
  | createDescriptor => exact .of_same rfl rfl rfl rfl rfl fun _ ho => ho
  | refused _ _ =>
    have hstrings : ∀ strings, KeepsCells σ { σ with strings } := fun _ =>
      .of_same rfl rfl rfl rfl rfl fun _ ho => ho
    exact (hstrings _).trans (.setNode _ _ _ _)
  | @added kind _ _ c _ path children _ _ _ =>
    have hbus : ∀ strings, KeepsCells σ { σ with
        strings
        bus := { σ.bus with
          registered := σ.bus.registered ++ [(σ.childPath kind path children, kind.object c)] } } :=
      fun strings => .of_same rfl rfl rfl rfl rfl fun o ho => mem_registered_append ho _
    exact ((hbus _).trans (.setNode _ _ _ _)).trans (.setChildren _ _ _ _)
  | controller hinit =>
    obtain ⟨x, vc, oc, co, cc, -, rfl, -⟩ := deviceInitController_spec hinit
    exact .of_same rfl rfl rfl rfl rfl fun _ ho => ho
  | registered _ _ =>
    exact .of_same rfl rfl rfl rfl rfl fun o ho => mem_registered_append ho _
  | requested => exact .of_same rfl rfl rfl rfl rfl fun _ ho => ho
  | asked => exact .of_same rfl rfl rfl rfl rfl fun _ ho => ho
  | advertised hinit =>
    obtain ⟨x, strings, a, i, j, k, -, rfl, -⟩ := deviceInitAdvertisement_spec hinit
    exact .of_same rfl rfl rfl rfl rfl fun _ ho => ho
  | listed _ _ =>
    rw [State.listDevice_eq]
    exact .of_same rfl rfl rfl rfl rfl fun _ ho => ho
  | valued honvalues _ => exact absurd honvalues hvalues
  | answered hreply =>
    obtain rfl := onRegisterApplicationReply_spec hreply
    exact .of_same rfl rfl rfl rfl rfl fun _ ho => ho
  | advertAnswered hreply =>
    obtain ⟨x, -, rfl⟩ := onRegisterAdvertReply_spec hreply
    exact .of_same rfl rfl rfl rfl rfl fun _ ho => ho
  | reused => exact .of_same rfl rfl rfl rfl rfl fun _ ho => ho
  | finalised _ => exact absurd hfini id

/-! ## What is shown afterwards -/

/-- A characteristic shows what it showed. -/
theorem shows (h : KeepsCells σ σ') {c : ℕ} {cell : Cell} (hshows : Shows σ c cell) :
    Shows σ' c cell := by
  obtain ⟨x, hx, -⟩ := hshows.notifying
  obtain ⟨hfin, hget⟩ := State.characteristic_eq_ok.mp hx
  -- the fields of an old cell are where they were, and so is the block its value is in
  obtain ⟨new, hshown, -⟩ := h.shown
  have hfields := congrArg (fun l : List _ => l[c]?) hshown
  have hlt : c < (σ.characteristics.map Characteristic.shown).length := by
    rw [List.length_map]
    exact (List.getElem?_eq_some_iff.mp hget).1
  simp only [List.getElem?_append_left hlt, List.getElem?_map, hget, Option.map_some] at hfields
  obtain ⟨x', hget', heq⟩ := Option.map_eq_some_iff.mp hfields
  simp only [Characteristic.shown, Prod.mk.injEq] at heq
  obtain ⟨hvalue, hsize, hflag⟩ := heq
  refine hshows.congr x' (State.characteristic_eq_ok.mpr ⟨h.finalised ▸ hfin, hget'⟩) fun y hy => ?_
  obtain rfl : x = y := by simpa using hx.symm.trans hy
  refine ⟨?_, hflag, fun id _ _ hid => h.live id hid⟩
  rw [Characteristic.content, Characteristic.content, hvalue, hsize]

/-- A characteristic that was not there before is empty and silent. -/
theorem shows_new (h : KeepsCells σ σ') {c : ℕ} (hlength : σ.characteristics.length ≤ c)
    {x : Characteristic} (hx : σ'.characteristic c = .ok x) : Shows σ' c ⟨[], false⟩ := by
  obtain ⟨new, hshown, hnew⟩ := h.shown
  have hfields := congrArg (fun l : List _ => l[c]?) hshown
  have hle : (σ.characteristics.map Characteristic.shown).length ≤ c := by
    rwa [List.length_map]
  simp only [List.getElem?_append_right hle, List.getElem?_map,
    (State.characteristic_eq_ok.mp hx).2, Option.map_some] at hfields
  have hnull := hnew _ (List.mem_of_getElem? hfields.symm)
  simp only [Characteristic.shown, Prod.mk.injEq] at hnull
  obtain ⟨hvalue, hsize, hflag⟩ := hnull
  exact ⟨⟨x, hx, by rw [hsize]; rfl, Or.inl ⟨hvalue, rfl⟩⟩, x, hx, hflag⟩

theorem length (h : KeepsCells σ σ') : σ.characteristics.length ≤ σ'.characteristics.length := by
  obtain ⟨new, hshown, -⟩ := h.shown
  have hlength := congrArg List.length hshown
  rw [List.length_append, List.length_map, List.length_map] at hlength
  omega

end KeepsCells

/-! ## Steps -/

/-- A message that is no call of a method of a characteristic. -/
def Message.NoMethod (m : Message) (o : Obj) : Prop :=
  ∀ c, o = .characteristic c →
    ∀ method ∈ characteristicMethods c, m.isMethodCall method.interface method.method = false

/-- The steps that are no calls on values: also messages, unless they call one of the methods of
a characteristic. -/
def Op.Elsewhere : Op → Prop
  | .setNotifying .. | .setValue .. | .fini _ => False
  | .deliver o m => m.NoMethod o
  | _ => True

/-- A message that calls no method of a characteristic is at most answered. -/
theorem dbusutilsObjectHandleMessage_keeps {o : Obj} {m request : Message} {σ σ' : State}
    {result : HandlerResult} (hmethod : m.NoMethod o)
    (h : dbusutilsObjectHandleMessage o m σ = .ok (result, request, σ')) : KeepsCells σ σ' := by
  obtain ⟨σ₁, reply, rfl, rfl | ⟨row, hrow, hmatch, hcall⟩⟩ := dbusutilsObjectHandleMessage_cases h
  · exact .sendReply _ reply
  · obtain rfl | ⟨c, hc, hmem⟩ := call_cases hrow hcall
    · exact .sendReply _ reply
    · rw [hmethod c hc row hmem] at hmatch
      cases hmatch

/-- Steps elsewhere keep all cells. -/
theorem exec_keeps {op : Op} {σ σ' : State} {r : Reply} (hop : op.Elsewhere)
    (h : exec op σ = .ok (r, σ')) : KeepsCells σ σ' := by
  cases hkind : op with
  | deliver o m =>
    rw [hkind] at h hop
    simp only [exec, ite_eq_ok, bind_eq_ok] at h
    rcases h with ⟨-, ⟨result, request, σ₁⟩, hhandle, h⟩ | ⟨-, h⟩
    · cases h
      exact dbusutilsObjectHandleMessage_keeps hop hhandle
    · -- no object is registered under the path
      cases h
      exact .refl σ
  | setNotifying | setValue | fini => rw [hkind] at hop; exact absurd hop id
  | _ =>
    have hchange : ∀ σ₁ σ₂, Change op σ₁ σ₂ → KeepsCells σ σ₁ → KeepsCells σ σ₂ := by
      intro σ₁ σ₂ hchange hkeeps
      apply hkeeps.trans
      apply KeepsCells.of_change hchange
      · rw [hkind]
        exact id
      · rw [hkind]
        trivial
    exact (exec_changes h).invariant hchange (.refl σ)

end BleSim
