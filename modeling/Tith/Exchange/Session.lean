import Tith.Exchange.Response
import Tith.Lib.Machine

/-!
This module contains the session of a client: the order in which a bundle is sent and answered.
-/

namespace Tith

inductive SessionState where
  | ready
  | awaitingReplyHeader
  | awaitingResponses
  | mustSendReply
  | closing
  | complete
  | failed
  deriving DecidableEq

structure ClientSession where
  state : SessionState
  tracker : ResponseTracker
  deriving DecidableEq

namespace ClientSession

def new (tracker : ResponseTracker) : ClientSession where
  state := .ready
  tracker

def requiresReturnBundle (session : ClientSession) : Bool :=
  session.tracker.requiresReturnBundle

def responses (session : ClientSession) : List CompletedResponse :=
  session.tracker.completed

def requests (session : ClientSession) : List OutstandingRequest :=
  session.tracker.outstanding

def fail (session : ClientSession) (error : ExchangeError)
    : Except ExchangeError Unit × ClientSession :=
  (.error error, { session with state := .failed })

def initialSent (session : ClientSession) : Except ExchangeError Unit × ClientSession :=
  if session.state ≠ .ready then
    session.fail .unexpectedResponse
  else
    (.ok (), { session with state := .awaitingReplyHeader })

def replyHeaderReceived (session : ClientSession) (reply : Bundle)
    : Except ExchangeError Unit × ClientSession :=
  if session.state ≠ .awaitingReplyHeader then
    session.fail .unexpectedResponse
  else
    match session.tracker.validateReplyIdentity reply with
    | .error error => session.fail error
    | .ok () =>
      if session.tracker.isComplete then
        (.ok (), { session with state := .closing })
      else
        (.ok (), { session with state := .awaitingResponses })

def afterResponses (tracker : ResponseTracker) : SessionState :=
  if tracker.isComplete then
    if tracker.requiresReturnBundle then .mustSendReply else .closing
  else
    .awaitingResponses

def responsesReceived (session : ClientSession) (responses : List ValidatedItem)
    : Except ExchangeError Unit × ClientSession :=
  if session.state ≠ .awaitingResponses then
    session.fail .unexpectedResponse
  else
    match session.tracker.observeResponses responses with
    | (.error error, tracker) => { session with tracker }.fail error
    | (.ok (), tracker) => (.ok (), { state := afterResponses tracker, tracker })

def finalReplySent (session : ClientSession) : Except ExchangeError Unit × ClientSession :=
  if session.state ≠ .mustSendReply then
    session.fail .unexpectedResponse
  else
    (.ok (), { session with state := .closing })

def closed (session : ClientSession) : Except ExchangeError Unit × ClientSession :=
  if session.state = .closing then
    (.ok (), { session with state := .complete })
  else if session.tracker.isComplete then
    session.fail .unexpectedResponse
  else
    (session.tracker.requireComplete, { session with state := .failed })

end ClientSession

inductive SessionEvent where
  | initialSent
  | replyHeaderReceived (reply : Bundle)
  | responsesReceived (responses : List ValidatedItem)
  | finalReplySent
  | closed

def ClientSession.step (session : ClientSession) (event : SessionEvent)
    : Except ExchangeError Unit × ClientSession :=
  match event with
  | .initialSent => session.initialSent
  | .replyHeaderReceived reply => session.replyHeaderReceived reply
  | .responsesReceived responses => session.responsesReceived responses
  | .finalReplySent => session.finalReplySent
  | .closed => session.closed

def sessionMachine (tracker : ResponseTracker)
    : Machine ClientSession SessionEvent (Except ExchangeError Unit) where
  init := ClientSession.new tracker
  step := ClientSession.step

end Tith
