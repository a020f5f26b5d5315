import Repartee.Lib.Run
import Repartee.E2e.Handlers

/-!
# Runs of the encryption core

The operations that the application layer performs on the manager, one constructor each: the
incoming messages, the calls made for outgoing traffic, the drains of the queues, and the user's
`/e2e` commands. A run is a list of operations, each in its own surroundings.

## Main definitions

- `Op`, `Op.exec`: the operations and what they run
- `step`: the transition of the system
-/

set_option autoImplicit false

namespace Repartee

/-- An operation of the application layer on the manager. -/
inductive Op where
  | keyreq (handle : Str) (nick : Option Str) (req : KeyReq)
  | keyrsp (handle : Str) (rsp : KeyRsp)
  | rekey (handle : Str) (rekey : KeyRekey)
  | ciphertext (handle channel line : Str)
  | encryptOutgoing (channel plaintext : Str)
  | buildKeyreq (channel : Str) (peerHandle : Option Str)
  | allowKeyreq (handle : Str)
  | takePendingTrustChanges
  | takePendingRekeySends
  | takePendingOutboundKeyreqs
  | takePendingAcceptRequests
  | acceptPendingInbound (handle channel : Str)
  | reverifyPeer (handle : Str)
  | forgetPeerOnChannel (handle channel : Str)
  | forgetPeerEverywhere (handle : Str)
  | updateIncomingStatus (handle channel : Str) (status : TrustStatus)
  | removeOutgoingRecipient (channel handle : Str)
  | markOutgoingPendingRotation (channel : Str)
  | setChannelConfig (cfg : ChannelConfig)
  | addAutotrust (scope pattern : Str)
  | removeAutotrust (pattern : Str)
  | importAll (rows : Keyring.ImportRows)

open E2eManager

variable (cr : Crates)

/-- What an operation runs. -/
def Op.exec (e : Env) : Op → M Unit
  | .keyreq h nick req => do let _ ← handleKeyreqWithNick cr e h nick req
  | .keyrsp h rsp => handleKeyrsp cr e h rsp
  | .rekey h rk => handleRekey cr e h rk
  | .ciphertext h c line => do let _ ← Exec.query (fun m => decryptIncoming cr e m h c line)
  | .encryptOutgoing c text => do let _ ← E2eManager.encryptOutgoing cr e c text
  | .buildKeyreq c peer => do let _ ← buildKeyreqForPeer cr e c peer
  | .allowKeyreq h => do let _ ← E2eManager.allowKeyreq e h
  | .takePendingTrustChanges => do let _ ← E2eManager.takePendingTrustChanges
  | .takePendingRekeySends => do let _ ← E2eManager.takePendingRekeySends
  | .takePendingOutboundKeyreqs => do let _ ← E2eManager.takePendingOutboundKeyreqs
  | .takePendingAcceptRequests => do let _ ← E2eManager.takePendingAcceptRequests
  | .acceptPendingInbound h c => do let _ ← E2eManager.acceptPendingInbound cr e h c
  | .reverifyPeer h => do let _ ← E2eManager.reverifyPeer e h
  | .forgetPeerOnChannel h c => do let _ ← E2eManager.forgetPeerOnChannel e h c
  | .forgetPeerEverywhere h => do let _ ← E2eManager.forgetPeerEverywhere e h
  | .updateIncomingStatus h c status => tell (fun k => k.updateIncomingStatus e h c status)
  | .removeOutgoingRecipient c h => tell (fun k => k.removeOutgoingRecipient e c h)
  | .markOutgoingPendingRotation c => tell (fun k => k.markOutgoingPendingRotation e c)
  | .setChannelConfig cfg => tell (fun k => k.setChannelConfig e cfg)
  | .addAutotrust scope pattern => tell (fun k => k.addAutotrust e scope pattern e.now)
  | .removeAutotrust pattern => tell (fun k => k.removeAutotrust e pattern)
  | .importAll rows => tell (fun _ => Keyring.replaceAllForImport e rows)

/-- One operation of a run with its surroundings. -/
abbrev Input := Env × Op

/-- The transition of the system; an operation that fails keeps its partial effects. -/
def step (m : E2eManager) (i : Input) : E2eManager := Exec.final (i.2.exec cr i.1) m

/-- The state after a run. -/
def runOps (m : E2eManager) (is : List Input) : E2eManager := Run.run (step cr) m is

end Repartee
