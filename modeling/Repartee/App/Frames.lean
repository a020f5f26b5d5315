import Repartee.App.Talking

/-!
# What sending leaves alone

Sending a message hands lines over and shows it. Which buffers exist and which one is active, the
lines of DCC sessions, and what is left to the link shortener stay as they are.

## Main definitions

- `AppState.SamePlaces`: the same buffers exist, and the same one is active
- `App.HandsOnly`: nothing but the handed lines and what is shown has changed

## Main results

- `App.handsOnly_deliver`: sending hands lines over and does no more
-/

set_option autoImplicit false

namespace Repartee

/-- The same buffers exist, and the same one is active. -/
structure AppState.SamePlaces (st st' : AppState) : Prop where
  active : st'.activeBufferId = st.activeBufferId
  exist : ∀ id, (st'.buffers.get? id).isSome = (st.buffers.get? id).isSome

namespace AppState

variable {st st' st'' : AppState}

theorem SamePlaces.refl (st : AppState) : SamePlaces st st := ⟨rfl, fun _ => rfl⟩

theorem SamePlaces.trans (h : SamePlaces st st') (h' : SamePlaces st' st'') : SamePlaces st st'' :=
  ⟨h'.active.trans h.active, fun id => (h'.exist id).trans (h.exist id)⟩

theorem samePlaces_addMessage (st : AppState) (id : Str) (m : Message) :
    SamePlaces st (st.addMessage id m) := by
  refine ⟨rfl, fun id' => ?_⟩
  rw [addMessage, modifyBuffer, Table.get?_updateWhere, Option.isSome_map]

theorem samePlaces_echo (st : AppState) (bufferId nick : Str) (messageType : MessageType)
    (chunks : List Str) : SamePlaces st (st.echo bufferId nick messageType chunks) := by
  rw [echo]
  induction chunks generalizing st with
  | nil => exact SamePlaces.refl st
  | cons chunk rest ih => exact (samePlaces_addMessage st bufferId _).trans (ih _)

theorem samePlaces_afterEncryption (cr : Crates) (st : AppState) (bufferId : Str)
    (mgr : E2eManager) : SamePlaces st (st.afterEncryption cr bufferId mgr) := by
  rw [afterEncryption, distributeRekeySends]
  cases st.connOfBuffer bufferId with
  | none => exact ⟨rfl, fun _ => rfl⟩
  | some connId => exact ⟨rfl, fun _ => rfl⟩

end AppState

open AppState

theorem samePlaces_encryptInContext (cr : Crates) (e : Env) (st : AppState) (mgr : E2eManager)
    (bufferId context text : Str) :
    SamePlaces st (encryptInContext cr e st mgr bufferId context text).2 := by
  rw [encryptInContext]
  split_ifs
  · split
    · exact samePlaces_afterEncryption cr st bufferId _
    · exact samePlaces_afterEncryption cr st bufferId _
  · exact SamePlaces.refl st

theorem samePlaces_e2eEncryptOrPassthrough (cr : Crates) (e : Env) (st : AppState)
    (bufferId bufferName : Str) (bufferType : BufferType) (text : Str) (captured : Option Str) :
    SamePlaces st
      (e2eEncryptOrPassthrough cr e st bufferId bufferName bufferType text captured).2 := by
  rw [e2eEncryptOrPassthrough]
  split_ifs
  · exact SamePlaces.refl st
  · cases st.e2eManager with
    | none => exact SamePlaces.refl st
    | some mgr =>
      simp only
      split
      · exact samePlaces_encryptInContext cr e st mgr bufferId _ text
      · split
        · exact samePlaces_encryptInContext cr e st mgr bufferId _ text
        · split_ifs
          · exact SamePlaces.refl st
          · exact SamePlaces.refl st
      · exact SamePlaces.refl st

namespace App

/-- A client has handed lines over, and nothing else of what it sends has changed. -/
structure HandsOnly (app app' : App) : Prop where
  places : app.state.SamePlaces app'.state
  dccLines : app'.dccLines = app.dccLines
  shrinkOutgoing : app'.shrinkOutgoing = app.shrinkOutgoing

variable {w : World} {cr : Crates} {app app' app'' : App}

theorem HandsOnly.refl (app : App) : HandsOnly app app := ⟨SamePlaces.refl _, rfl, rfl⟩

theorem HandsOnly.trans (h : HandsOnly app app') (h' : HandsOnly app' app'') :
    HandsOnly app app'' :=
  ⟨h.places.trans h'.places, h'.dccLines.trans h.dccLines,
    h'.shrinkOutgoing.trans h.shrinkOutgoing⟩

theorem handsOnly_send (app : App) (line : Handed) : HandsOnly app (app.send w line).2 := by
  rw [App.send]
  split_ifs
  · exact ⟨SamePlaces.refl _, rfl, rfl⟩
  · exact ⟨SamePlaces.refl _, rfl, rfl⟩

theorem handsOnly_sendWires (connId target : Str) (wires : List Str) (app : App) :
    HandsOnly app (sendWires w connId target wires app).2 := by
  induction wires generalizing app with
  | nil => exact HandsOnly.refl app
  | cons wire rest ih =>
    have hsend := @handsOnly_send w app ⟨connId, .privmsg, target, wire⟩
    rw [sendWires]
    split_ifs
    · cases hstep : app.send w ⟨connId, .privmsg, target, wire⟩ with
      | mk taken app₁ =>
        rw [hstep] at hsend
        cases taken with
        | true => exact hsend.trans (ih app₁)
        | false => exact hsend
    · exact ih app

theorem handsOnly_shipAll (sends : List PendingE2eSend) (app : App) :
    HandsOnly app (shipAll w sends app) := by
  induction sends generalizing app with
  | nil => exact HandsOnly.refl app
  | cons s rest ih =>
    rw [shipAll]
    split_ifs
    · exact (@handsOnly_send w app _).trans (ih _)
    · exact ih app

theorem handsOnly_deliver (app : App) (connId bufferId bufferName nick : Str)
    (result : Option (List Str × Str)) {st : AppState} (hplaces : app.state.SamePlaces st) :
    HandsOnly app (deliver w app connId bufferId bufferName nick (result, st)) := by
  have hstart : HandsOnly app { app.tick with state := st } := ⟨hplaces, rfl, rfl⟩
  cases result with
  | none => exact hstart
  | some message =>
    obtain ⟨wires, plainEcho⟩ := message
    refine hstart.trans ?_
    rw [deliver, sendAndEcho]
    have hwires := @handsOnly_sendWires w connId bufferName wires { app.tick with state := st }
    cases hsend : sendWires w connId bufferName wires { app.tick with state := st } with
    | mk taken app₁ =>
      rw [hsend] at hwires
      cases taken with
      | false => exact hwires
      | true =>
        have hdrained : HandsOnly app₁ (app₁.drainPendingE2eSends w) := by
          have hship := @handsOnly_shipAll w app₁.state.pendingE2eSends
            { app₁ with state := { app₁.state with pendingE2eSends := [] } }
          exact ⟨⟨hship.places.active, hship.places.exist⟩, hship.dccLines, hship.shrinkOutgoing⟩
        simp only
        split_ifs
        · exact (hwires.trans hdrained).trans
            ⟨samePlaces_echo _ bufferId nick .message (localChunks plainEcho), rfl, rfl⟩
        · exact hwires.trans hdrained

end App

end Repartee
