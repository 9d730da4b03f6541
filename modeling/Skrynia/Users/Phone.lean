/-
Phone verification: the two handlers statement by statement, and the
provider's approvals.

A request stores a number and clears the mark, a confirmation asks the
provider about the number it read and sets the mark. No statement locks
the row from one step to the next, so any number of both may be under way
for one user, at any step each.

# What the mark means

The provider's approvals are recorded as they are given. A confirmation
that reaches its UPDATE has one for the number it read; the mark is about
the stored number as long as that is the same one (`MarksWhatItRead`).
-/
import Mathlib.Data.List.Pairwise
import Skrynia.Common.Text
import Skrynia.Db.Schema
import Skrynia.Lib.Runs

namespace Skrynia

open Relational Stepping

-- ================================================================== rows

/-- The columns of a user that the handlers read and write. -/
structure PhoneUser where
  id : Uuid
  phone : Option String
  phoneVerifiedAt : Option Timestamp

/-- `users`, under the partial unique index on `phone`. -/
structure PhoneBook where
  users : Table PhoneUser.id
  unique : (users.rows.filterMap PhoneUser.phone).Nodup

namespace PhoneBook

variable (b : PhoneBook)

/-- A table without users. -/
def empty : PhoneBook := ⟨Table.empty, List.nodup_nil⟩

/-- The users after an UPDATE of one row, which keeps its id. -/
def updated (userId : Uuid) (f : PhoneUser → PhoneUser)
    (hf : ∀ r, (f r).id = r.id) : Table PhoneUser.id :=
  b.users.update (fun r => r.id = userId) f hf

/-- A write that the unique index may refuse. -/
def checked (users : Table PhoneUser.id) : Option PhoneBook :=
  if h : (users.rows.filterMap PhoneUser.phone).Nodup then some ⟨users, h⟩
  else none

/-- `insert into users`. -/
def register (userId : Uuid) : Option PhoneBook :=
  (b.users.insert? ⟨userId, none, none⟩).bind checked

/-- `update users set phone = $1, phone_verified_at = null`. -/
def storePhone (userId : Uuid) (phone : String) : Option PhoneBook :=
  checked (b.updated userId
    (fun r => { r with
      phone := some phone
      phoneVerifiedAt := none }) fun _ => rfl)

/-- `update users set phone_verified_at = now()`. -/
def markVerified (userId : Uuid) (now : Timestamp) : Option PhoneBook :=
  checked (b.updated userId
    (fun r => { r with phoneVerifiedAt := some now }) fun _ => rfl)

end PhoneBook

-- ================================================================ system

/-- `/^\+[1-9]\d{7,14}$/`. -/
def isPhone (phone : String) : Bool :=
  match phone.toList with
  | plus :: first :: rest =>
      plus == '+' && '1' ≤ first && first ≤ '9' && rest.all Char.isDigit
        && 7 ≤ rest.length && rest.length ≤ 14
  | _ => false

/-- `z.string().min(4).max(8)`, which counts UTF-16 units. -/
def isPhoneCode (code : String) : Bool :=
  4 ≤ utf16Length code && utf16Length code ≤ 8

/-- What a handler does next. -/
inductive PhoneTask where
  /-- `select id from users where phone = $1 and id != $2`. -/
  | selectExisting (userId : Uuid) (phone : String)
  /-- `sendPhoneVerificationCode`. -/
  | send (userId : Uuid) (phone : String)
  | storePhone (userId : Uuid) (phone : String)
  /-- `select phone from users where id = $1`. -/
  | selectPhone (userId : Uuid) (code : String)
  /-- `checkPhoneVerificationCode`. -/
  | check (userId : Uuid) (phone code : String)
  | markVerified (userId : Uuid) (phone : String)

/-- An approval of the provider. -/
structure PhoneApproval where
  userId : Uuid
  phone : String
  /-- As the user submitted it. -/
  code : String

/-- The table, the calls under way, and the approvals given. -/
structure PhoneSystem where
  book : PhoneBook
  tasks : Nat → Option PhoneTask
  approvals : List PhoneApproval

/-- What may happen next. -/
inductive PhoneStep where
  | register (userId : Uuid)
  | request (n : Nat) (userId : Uuid) (phone : String)
  | confirm (n : Nat) (userId : Uuid) (code : String)
  /-- `answer` is the provider's, where it is asked. -/
  | advance (n : Nat) (answer : Bool) (now : Timestamp)
  /-- An error, a rate limit, a crash. -/
  | fail (n : Nat)

namespace PhoneSystem

variable (s : PhoneSystem)

/-- Before any user. -/
def opening : PhoneSystem := ⟨.empty, fun _ => none, []⟩

/-- A call goes on, or is over. -/
def goto (n : Nat) (t : Option PhoneTask) : PhoneSystem :=
  { s with tasks := Function.update s.tasks n t }

/-- A statement that writes, if it does not fail, and ends the handler. -/
def finish (n : Nat) (written : Option PhoneBook) : PhoneSystem :=
  { s.goto n none with book := written.getD s.book }

/-- The next statement of a call; `answer` is the provider's. -/
def advance (n : Nat) (answer : Bool) (now : Timestamp) : PhoneSystem :=
  match s.tasks n with
  | none => s
  | some (.selectExisting userId phone) =>
      if ∃ r ∈ s.book.users.rows, r.phone = some phone ∧ r.id ≠ userId then
        s.goto n none
      else s.goto n (some (.send userId phone))
  | some (.send userId phone) =>
      if answer then s.goto n (some (.storePhone userId phone))
      else s.goto n none
  | some (.storePhone userId phone) =>
      s.finish n (s.book.storePhone userId phone)
  | some (.selectPhone userId code) =>
      match (s.book.users.find? userId).bind PhoneUser.phone with
      | none => s.goto n none
      | some phone => s.goto n (some (.check userId phone code))
  | some (.check userId phone code) =>
      if answer then
        { s.goto n (some (.markVerified userId phone)) with
          approvals := s.approvals ++ [⟨userId, phone, code⟩] }
      else s.goto n none
  | some (.markVerified userId _) =>
      s.finish n (s.book.markVerified userId now)

/-- A new handler, unless its number is in use. -/
def start (n : Nat) (valid : Bool) (t : PhoneTask) : PhoneSystem :=
  if valid ∧ (s.tasks n).isNone then s.goto n (some t) else s

/-- One event. -/
def step : PhoneStep → PhoneSystem
  | .register userId => { s with book := (s.book.register userId).getD s.book }
  | .request n userId phone =>
      s.start n (isPhone phone) (.selectExisting userId phone)
  | .confirm n userId code =>
      s.start n (isPhoneCode code) (.selectPhone userId code)
  | .advance n answer now => s.advance n answer now
  | .fail n => s.goto n none

/-- Every verified number has an approval of that user and number. -/
def Approved : Prop :=
  ∀ r ∈ s.book.users.rows, r.phoneVerifiedAt.isSome →
    ∃ a ∈ s.approvals, a.userId = r.id ∧ r.phone = some a.phone

instance : Decidable s.Approved :=
  inferInstanceAs (Decidable (∀ r ∈ _, _ → ∃ a ∈ _, _ ∧ _))

/-- A confirmation's UPDATE finds the number that the confirmation read. -/
def MarksWhatItRead (s : PhoneSystem) : PhoneStep → Prop
  | .advance n _ _ =>
      match s.tasks n with
      | some (.markVerified userId phone) =>
          ∀ r ∈ s.book.users.find? userId, r.phone = some phone
      | _ => True
  | _ => True

instance (e : PhoneStep) : Decidable (s.MarksWhatItRead e) := by
  unfold MarksWhatItRead
  split
  · split
    · infer_instance
    · exact instDecidableTrue
  · exact instDecidableTrue

-- ============================================================= invariant

/-- An approval for a user and a number. -/
def HasApproval (userId : Uuid) (phone : String) : Prop :=
  ∃ a ∈ s.approvals, a.userId = userId ∧ a.phone = phone

/-- The marks are approved, and so is the number of every confirmation
that is about to mark. -/
structure Sound : Prop where
  approved : s.Approved
  marking : ∀ n userId phone, s.tasks n = some (.markVerified userId phone) →
    s.HasApproval userId phone

variable {s} {s' : PhoneSystem}

/-- Before any user no number is marked. -/
theorem sound_opening : opening.Sound := by
  constructor
  · intro r hr
    cases hr
  · exact nofun

/-- No new mark, and no new number to mark. -/
theorem Sound.of_book (h : s.Sound) {book : PhoneBook} {n : Nat}
    {t : Option PhoneTask} (ht : ∀ userId phone,
      t = some (.markVerified userId phone) → s.HasApproval userId phone)
    (hbook : ∀ r ∈ book.users.rows, r.phoneVerifiedAt.isSome →
      ∃ a ∈ s.approvals, a.userId = r.id ∧ r.phone = some a.phone) :
    Sound { s.goto n t with book := book } := by
  constructor
  · exact hbook
  · intro m userId phone hm
    rcases update_cases hm with ⟨-, heq⟩ | ⟨-, hold⟩
    · exact ht userId phone heq
    · exact h.marking m userId phone hold

/-- A call may go on to set the mark if it has its approval. -/
theorem Sound.goto (h : s.Sound) {n : Nat} {t : Option PhoneTask}
    (ht : ∀ userId phone, t = some (.markVerified userId phone) →
      s.HasApproval userId phone) : (s.goto n t).Sound :=
  h.of_book ht h.approved

/-- A table that passes the unique index is the one written. -/
theorem mem_checked {users : Table PhoneUser.id} {b : PhoneBook}
    (h : PhoneBook.checked users = some b) : b.users = users := by
  unfold PhoneBook.checked at h
  split at h
  · cases h
    rfl
  · cases h

/-- A write of a user's row whose result is approved. -/
theorem Sound.finish (h : s.Sound) {n : Nat} {userId : Uuid}
    {f : PhoneUser → PhoneUser} {hf : ∀ r, (f r).id = r.id}
    (hnew : ∀ r ∈ s.book.users.rows, r.id = userId →
      (f r).phoneVerifiedAt.isSome →
        ∃ a ∈ s.approvals, a.userId = userId ∧ (f r).phone = some a.phone) :
    (s.finish n (PhoneBook.checked (s.book.updated userId f hf))).Sound := by
  apply h.of_book
  · exact nofun
  · cases hwritten : PhoneBook.checked (s.book.updated userId f hf) with
    | none => exact h.approved
    | some b =>
        rw [Option.getD_some, mem_checked hwritten]
        intro r hr hverified
        obtain ⟨r₀, hr₀, rfl⟩ := List.mem_map.mp hr
        by_cases hid : r₀.id = userId
        · rw [if_pos hid] at hverified ⊢
          rw [hf, hid]
          exact hnew r₀ hr₀ hid hverified
        · rw [if_neg hid] at hverified ⊢
          exact h.approved r₀ hr₀ hverified

/-- A new user has no number. -/
theorem Sound.register (h : s.Sound) (userId : Uuid) :
    (s.step (.register userId)).Sound := by
  refine ⟨?_, h.marking⟩
  show ∀ r ∈ ((s.book.register userId).getD s.book).users.rows, _
  cases hwritten : s.book.register userId with
  | none => exact h.approved
  | some b =>
      obtain ⟨users, hinsert, hchecked⟩ := Option.bind_eq_some_iff.mp hwritten
      rw [Option.getD_some, mem_checked hchecked]
      intro r hr hverified
      rw [(Table.insert?_eq_some.mp hinsert).2, List.mem_append,
        List.mem_singleton] at hr
      rcases hr with hr | rfl
      · exact h.approved r hr hverified
      · cases hverified

/-- A call that begins is not about to set the mark. -/
theorem Sound.start (h : s.Sound) {n : Nat} {valid : Bool} {t : PhoneTask}
    (ht : ∀ userId phone, t ≠ .markVerified userId phone) :
    (s.start n valid t).Sound := by
  unfold PhoneSystem.start
  split
  · apply h.goto
    intro userId phone heq
    exact absurd (Option.some.inj heq) (ht userId phone)
  · exact h

/-- A statement that marks what it read keeps marks approved: the provider
has approved the number that the call had read, and that is the number of the
row. -/
theorem Sound.advance (h : s.Sound) {n : Nat} {answer : Bool} {now : Timestamp}
    (hmarks : s.MarksWhatItRead (.advance n answer now)) :
    (s.advance n answer now).Sound := by
  unfold PhoneSystem.advance
  split
  · exact h
  · split
    · exact h.goto nofun
    · exact h.goto nofun
  · split
    · exact h.goto nofun
    · exact h.goto nofun
  · apply h.finish
    intro r _ _ hverified
    cases hverified
  · split
    · exact h.goto nofun
    · exact h.goto nofun
  · next userId phone code _ =>
      split
      · -- the approval comes with the number that it is for
        constructor
        · intro r hr hverified
          obtain ⟨a, ha, hmatch⟩ := h.approved r hr hverified
          exact ⟨a, List.mem_append_left _ ha, hmatch⟩
        · intro m userId' phone' hm
          rcases update_cases hm with ⟨-, heq⟩ | ⟨-, hold⟩
          · cases heq
            exact ⟨⟨userId, phone, code⟩,
              List.mem_append_right _ List.mem_cons_self, rfl, rfl⟩
          · obtain ⟨a, ha, hmatch⟩ := h.marking m userId' phone' hold
            exact ⟨a, List.mem_append_left _ ha, hmatch⟩
      · exact h.goto nofun
  · next userId phone htask =>
      obtain ⟨a, ha, huser, hphone⟩ := h.marking n userId phone htask
      rw [MarksWhatItRead, htask] at hmarks
      apply h.finish
      intro r hr hid _
      have hfind : s.book.users.find? userId = some r := by
        rw [← hid]
        exact Table.find?_of_mem hr
      refine ⟨a, ha, huser, ?_⟩
      rw [hphone]
      exact hmarks r hfind

/-- So does every such event. -/
theorem Sound.step (h : s.Sound) (e : PhoneStep) (he : s.MarksWhatItRead e) :
    (s.step e).Sound := by
  cases e with
  | register userId => exact h.register userId
  | request n userId phone => exact h.start nofun
  | confirm n userId code => exact h.start nofun
  | advance n answer now => exact h.advance he
  | fail n => exact h.goto nofun

/-- The index admits one row a number. -/
theorem PhoneBook.eq_of_phone {b : PhoneBook} {r r' : PhoneUser}
    (hr : r ∈ b.users.rows) (hr' : r' ∈ b.users.rows) {phone : String}
    (hphone : r.phone = some phone) (hphone' : r'.phone = some phone) :
    r = r' := by
  by_contra hne
  have hsymm : Std.Symm fun x y : PhoneUser => ∀ p, x.phone = some p →
      ∀ q, y.phone = some q → p ≠ q :=
    ⟨fun _ _ hxy p hp q hq heq => hxy q hq p hp heq.symm⟩
  have hunique := List.pairwise_filterMap.mp b.unique
  exact hunique.forall hr hr' hne phone hphone phone hphone' rfl

-- ================================================================== runs

/-- While every confirmation marks the number that it read: a verified
number was approved, for the user and with a code of theirs, and no two
accounts hold it. -/
theorem phone_verified_approved (steps : List PhoneStep)
    (h : Along step MarksWhatItRead opening steps) :
    (run step opening steps).Approved
      ∧ ∀ r ∈ (run step opening steps).book.users.rows,
        ∀ r' ∈ (run step opening steps).book.users.rows,
          r.phoneVerifiedAt.isSome → r'.phone = r.phone → r' = r := by
  have hsound : (run step opening steps).Sound :=
    run_keeps_along (fun _ e he hs => hs.step e he) h sound_opening
  refine ⟨hsound.approved, ?_⟩
  intro r hr r' hr' hverified hphone
  obtain ⟨a, -, -, hnumber⟩ := hsound.approved r hr hverified
  exact PhoneBook.eq_of_phone hr' hr (hphone.trans hnumber) hnumber

/-- A user asks for a code for a number. -/
def requestSteps (n : Nat) (phone : String) : List PhoneStep :=
  [.request n ⟨1⟩ phone, .advance n false 0, .advance n true 0,
    .advance n false 0]

/-- A number is requested and confirmed, and its mark is approved. -/
theorem phone_verified_approved_confirmed :
    let steps := .register ⟨1⟩ :: requestSteps 1 "+380501234567"
      ++ [.confirm 2 ⟨1⟩ "1234", .advance 2 false 0, .advance 2 true 0,
        .advance 2 false 5]
    ((run step opening steps).book.users.find? ⟨1⟩).map
        PhoneUser.phoneVerifiedAt = some (some 5)
      ∧ (run step opening steps).Approved := by
  intro steps
  exact ⟨by decide, (phone_verified_approved steps (by decide)).1⟩

/-- A confirmation of one number waits for the provider while the user
replaces the number; then it marks the new one, which nobody checked. -/
theorem replacedPhone_not_approved :
    let steps := .register ⟨1⟩ :: requestSteps 1 "+380501234567"
      ++ [.confirm 2 ⟨1⟩ "1234", .advance 2 false 0, .advance 2 true 0]
      ++ requestSteps 3 "+12025550123" ++ [.advance 2 false 5]
    ¬ (run step opening steps).Approved := by
  decide

end PhoneSystem

end Skrynia
