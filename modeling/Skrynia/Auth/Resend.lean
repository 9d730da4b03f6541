/-
The limits on sending a verification again: e-mails and SMS codes.

Both keep two keys for a user: a cooldown, and a counter for the hour. The
check for e-mails is one script; the check for codes is up to four commands
of its own, between which other requests run, or which the caller does not
live to send.

# Keys and history

A key with a time to live is gone from that time on. A counter that is
created anew is a new window; a `Ticket` is what an `INCR` returned, with
the window in which it did. The windows, the sends, the refusals and when a
call has read the cooldown are history: no check reads them.
-/
import Skrynia.Db.Schema
import Skrynia.Lib.Runs

namespace Skrynia

open Stepping

-- ================================================================= keys

/-- `RESEND_COOLDOWN_SECONDS`, in milliseconds. -/
def resendCooldown : Nat := 60 * 1000

/-- The time to live of a counter. -/
def resendHour : Nat := 60 * 60 * 1000

/-- `RESEND_HOURLY_LIMIT` of verification e-mails. -/
def emailHourlyLimit : Nat := 5

/-- `RESEND_HOURLY_LIMIT` of codes. -/
def phoneHourlyLimit : Nat := 3

/-- The counter of an hour; without a time to live it stays. -/
structure HourlyKey where
  window : Nat
  count : Nat
  expiresAt : Option Nat
deriving DecidableEq

/-- A number that `INCR` returned, and in which window. -/
structure Ticket where
  window : Nat
  count : Nat
deriving DecidableEq

/-- A send that was accepted, and with which number. -/
structure Send where
  time : Nat
  ticket : Ticket
deriving DecidableEq

/-- The two keys of a user, and what was sent and refused. -/
structure Limiter where
  cooldown : Option Nat
  hourly : Option HourlyKey
  windows : Nat
  sends : List Send
  refused : List Nat

namespace Limiter

variable (l : Limiter) (now : Nat)

/-- A user for whom Redis has no key. -/
def fresh : Limiter := ⟨none, none, 0, [], []⟩

/-- `EXISTS`, or `GET`, of the cooldown. -/
def onCooldown : Bool := l.cooldown.any (now < ·)

/-- The counter, unless it has expired. -/
def current : Option HourlyKey :=
  l.hourly.filter fun k => k.expiresAt.all (now < ·)

/-- `GET` of the counter, or 0. -/
def count : Nat := ((l.current now).map HourlyKey.count).getD 0

/-- The counter after `INCR`. -/
def incremented : HourlyKey :=
  match l.current now with
  | some k => { k with count := k.count + 1 }
  | none => ⟨l.windows, 1, none⟩

/-- What `INCR` returns. -/
def ticket : Ticket := ⟨(l.incremented now).window, (l.incremented now).count⟩

/-- `INCR` of the counter. -/
def incr : Limiter :=
  { l with
    hourly := some (l.incremented now)
    windows := if (l.current now).isSome then l.windows else l.windows + 1 }

/-- `EXPIRE` of the counter. -/
def expire : Limiter :=
  { l with
    hourly := (l.current now).map fun k =>
      { k with expiresAt := some (now + resendHour) } }

/-- `SET` of the cooldown: the send is accepted. -/
def accept (t : Ticket) : Limiter :=
  { l with
    cooldown := some (now + resendCooldown)
    sends := ⟨now, t⟩ :: l.sends }

/-- The caller gets an error. -/
def refuse : Limiter := { l with refused := now :: l.refused }

/-- `if redis.call("TTL", KEYS[2]) < 0 then redis.call("EXPIRE", …)`. -/
def expireIfPersistent : Limiter :=
  if ((l.current now).map HourlyKey.expiresAt) = some none then l.expire now
  else l

/-- `CHECK_RESEND_RATE_LIMIT_SCRIPT` for e-mails. -/
def checkResendRateLimit : Limiter :=
  if l.onCooldown now then l.refuse now
  else if emailHourlyLimit ≤ l.count now then l.refuse now
  else ((l.incr now).expireIfPersistent now).accept now (l.ticket now)

/-- The times of the sends, the latest first. -/
def times : List Nat := l.sends.map Send.time

end Limiter

-- =============================================================== system

/-- The command that a `checkPhoneResendRateLimit` sends next. -/
inductive PhonePhase where
  | reading
  | incrementing
  | expiring (t : Ticket)
  | setting (t : Ticket)
  /-- Returned, refused or crashed. -/
  | ended
deriving DecidableEq

/-- A call, and when it has sent its `GET`. -/
structure PhoneCall where
  userId : Uuid
  phase : PhonePhase
  readAt : Nat
deriving DecidableEq

/-- The two limiters of every user, and the calls for codes. -/
structure ResendSystem where
  now : Nat
  email : Uuid → Limiter
  phone : Uuid → Limiter
  calls : Nat → Option PhoneCall

/-- Time passes, an e-mail is asked for, a call for a code begins or sends
its next command, or stops. -/
inductive ResendEvent where
  | tick (duration : Nat)
  | email (userId : Uuid)
  | phone (c : Nat) (userId : Uuid)
  | get (c : Nat)
  | incr (c : Nat)
  | expire (c : Nat)
  | set (c : Nat)
  | crash (c : Nat)

namespace ResendSystem

variable (s : ResendSystem)

/-- No user has a key, and no call is there. -/
def start : ResendSystem where
  now := 0
  email := fun _ => .fresh
  phone := fun _ => .fresh
  calls := fun _ => none

/-- The keys for the codes of a user. -/
def withPhone (userId : Uuid) (l : Limiter) : ResendSystem :=
  { s with phone := Function.update s.phone userId l }

/-- A call goes on to another phase. -/
def setPhase (c : Nat) (call : PhoneCall) (phase : PhonePhase) :
    ResendSystem :=
  { s with
    calls := Function.update s.calls c (some { call with phase := phase }) }

/-- A call that is there. -/
def withCall (c : Nat) (f : PhoneCall → ResendSystem) : ResendSystem :=
  match s.calls c with
  | none => s
  | some call => f call

/-- A call of `checkPhoneResendRateLimit` begins. -/
def callPhone (c : Nat) (userId : Uuid) : ResendSystem :=
  match s.calls c with
  | some _ => s
  | none => s.setPhase c ⟨userId, .reading, s.now⟩ .reading

/-- `GET` of the cooldown. -/
def get (c : Nat) : ResendSystem :=
  s.withCall c fun call =>
    match call.phase with
    | .reading =>
        let l := s.phone call.userId
        if l.onCooldown s.now then
          (s.withPhone call.userId (l.refuse s.now)).setPhase c call .ended
        else s.setPhase c { call with readAt := s.now } .incrementing
    | _ => s

/-- `INCR`, and what the caller makes of the number. -/
def incr (c : Nat) : ResendSystem :=
  s.withCall c fun call =>
    match call.phase with
    | .incrementing =>
        let l := s.phone call.userId
        let t := l.ticket s.now
        if t.count = 1 then
          (s.withPhone call.userId (l.incr s.now)).setPhase c call (.expiring t)
        else if phoneHourlyLimit < t.count then
          (s.withPhone call.userId ((l.incr s.now).refuse s.now)).setPhase c
            call .ended
        else
          (s.withPhone call.userId (l.incr s.now)).setPhase c call (.setting t)
    | _ => s

/-- `EXPIRE` by the call that has created the counter. -/
def expire (c : Nat) : ResendSystem :=
  s.withCall c fun call =>
    match call.phase with
    | .expiring t =>
        (s.withPhone call.userId ((s.phone call.userId).expire s.now)).setPhase
          c call (.setting t)
    | _ => s

/-- `SET` of the cooldown: the code is sent. -/
def set (c : Nat) : ResendSystem :=
  s.withCall c fun call =>
    match call.phase with
    | .setting t =>
        (s.withPhone call.userId
          ((s.phone call.userId).accept s.now t)).setPhase c call .ended
    | _ => s

/-- The process of a call stops. -/
def crash (c : Nat) : ResendSystem :=
  s.withCall c fun call => s.setPhase c call .ended

/-- One command, or time. -/
def step : ResendSystem → ResendEvent → ResendSystem
  | s, .tick duration => { s with now := s.now + duration }
  | s, .email userId =>
      { s with
        email := Function.update s.email userId
          ((s.email userId).checkResendRateLimit s.now) }
  | s, .phone c userId => s.callPhone c userId
  | s, .get c => s.get c
  | s, .incr c => s.incr c
  | s, .expire c => s.expire c
  | s, .set c => s.set c
  | s, .crash c => s.crash c

end ResendSystem

end Skrynia
