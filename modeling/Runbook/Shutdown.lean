import Runbook.Broadcast
import Runbook.Context

namespace Runbook

/-!
# Shutdown

A shutdown cancels the context at the root of a tree and sends its reason to
those who have subscribed.  Run contexts are children of that root, so they end
with it, while one that is cancelled on its own leaves the root alone.
-/

/-- Why a shutdown was asked for. -/
inductive ShutdownReason where
  | user
  | signal
  | fatal (text : String)
  deriving DecidableEq, Repr

/-- The contexts of a process, below one root, and the channel for the reason. -/
structure Shutdown where
  tree : ContextTree := ContextTree.root {}
  channel : Broadcast ShutdownReason := { capacity := 1 }
  deriving DecidableEq, Repr

namespace Shutdown

/-- The position of the root context. -/
def rootContext : Nat := 0

/-- Whether the shutdown has happened. -/
def isShutdown (state : Shutdown) : Bool := state.tree.isCancelled rootContext 0

/-- Shut down; after a shutdown this changes nothing. -/
def shutdown (state : Shutdown) (reason : ShutdownReason) : Shutdown :=
  if state.isShutdown then state
  else
    { tree := state.tree.cancel rootContext 0
      channel := state.channel.send reason }

/-- Add a subscriber. -/
def subscribe (state : Shutdown) : Shutdown := { state with channel := state.channel.join }

/-- What a subscriber receives, if anything. -/
def receive (state : Shutdown) (subscriber : Nat) : Option ShutdownReason × Shutdown :=
  let (reason, channel) := state.channel.receive subscriber
  (reason, { state with channel := channel })

/-- Add a run context. -/
def addRunContext (state : Shutdown) : Shutdown :=
  { state with tree := state.tree.child rootContext }

/-- Cancel a run context on its own; run contexts count from zero. -/
def cancelRunContext (state : Shutdown) (run : Nat) : Shutdown :=
  { state with tree := state.tree.cancel (run + 1) 0 }

/-- Why a run context has ended, if it has. -/
def runContextEnded (state : Shutdown) (run : Nat) : Option Fault :=
  state.tree.ended (run + 1) 0

end Shutdown

end Runbook
