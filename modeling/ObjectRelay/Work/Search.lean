import ObjectRelay.Work.Trial

namespace ObjectRelay

/-! The search for a nonce.  Of `count` workers, worker `id` tries `id`, `id +
count`, `id + 2 * count` and so on, until one of them reports a nonce or all
have stopped. -/

namespace Search

def mostWorkers : Nat := 255

def workersUsed (workers : Nat) : Nat :=
  min workers mostWorkers

/-- How many nonces a worker tries between two looks at whether to stop. -/
def batchSize : Nat := 1024

inductive Worker where
  /-- Looks whether a nonce was found. -/
  | looking (nonce : UInt64)
  /-- Saw that none was found, and looks whether the search was cancelled. -/
  | asking (nonce : UInt64)
  /-- Has so many nonces left to try in its batch after this one. -/
  | trying (nonce : UInt64) (left : Nat)
  /-- Has a nonce that meets the target, and marks that one was found. -/
  | claiming (nonce : UInt64)
  /-- Was the first to mark it, and reports its nonce. -/
  | reporting (nonce : UInt64)
  | stopped
deriving DecidableEq

/-- Whoever started the workers: waits for a report or for the last of them to
go, makes the others stop and waits for them. -/
inductive Caller where
  | receiving
  | closing (received? : Option UInt64)
  | joining (received? : Option UInt64)
  | judging
  | done (result : Except WorkError UInt64)

structure Race where
  workers : List Worker
  cancelled : Bool
  found : Bool := false
  reports : List UInt64 := []
  caller : Caller := .receiving

inductive Turn where
  | worker (id : Nat)
  | caller
  | cancel
deriving DecidableEq

/-- No nonce comes after the last word. -/
def next? (count : Nat) (nonce : UInt64) : Option UInt64 :=
  if nonce.toNat + count <
    UInt64.size then some (UInt64.ofNat (nonce.toNat + count)) else none

/-- After a nonce that fails. -/
def Worker.onward (count : Nat) (nonce : UInt64) (left : Nat) : Worker :=
  match next? count nonce, left with
  | none, _ => stopped
  | some next, 0 => looking next
  | some next, left + 1 => trying next left

namespace Race

def start (count : Nat) (cancelled : Bool) : Race where
  workers := (List.range count).map fun id => .looking (UInt64.ofNat id)
  cancelled := cancelled

def become (race : Race) (id : Nat) (worker : Worker) : Race :=
  { race with workers := race.workers.set id worker }

def move (meets : UInt64 → Bool) (race : Race) (id : Nat) : Worker → Race
  | .looking nonce =>
    race.become id (if race.found then .stopped else .asking nonce)
  | .asking nonce =>
      race.become id (if race.cancelled then .stopped
        else .trying nonce (batchSize - 1))
  | .trying nonce left =>
      race.become id
        (if meets nonce then .claiming nonce
          else .onward race.workers.length nonce left)
  | .claiming nonce =>
      { race.become id (if race.found then .stopped else .reporting nonce) with
        found := true }
  | .reporting nonce =>
      { race.become id .stopped with reports := race.reports ++ [nonce] }
  | .stopped => race

def isOver (race : Race) : Bool :=
  race.workers.all (· = .stopped)

/-- Only the first report is received.  Without one, nothing is until all
workers have gone. -/
def proceed (race : Race) : Race :=
  match race.caller with
  | .receiving =>
      match race.reports with
      | nonce :: _ => { race with caller := .closing (some nonce) }
      | [] =>
          if race.isOver then { race with caller := .closing none } else race
  | .closing received? =>
      { race with found := true, caller := .joining received? }
  | .joining received? =>
      if race.isOver then
        { race with caller := match received? with
          | some nonce => .done (.ok nonce)
          | none => .judging }
      else race
  | .judging =>
      { race with
        caller := .done
          (.error (if race.cancelled then .cancelled else .exhausted)) }
  | .done _ => race

def turn (meets : UInt64 → Bool) (race : Race) : Turn → Race
  | .worker id =>
      match race.workers[id]? with
      | some worker => race.move meets id worker
      | none => race
  | .caller => race.proceed
  | .cancel => { race with cancelled := true }

def run (meets : UInt64 → Bool) (race : Race) (turns : List Turn) : Race :=
  turns.foldl (turn meets) race

def result? (race : Race) : Option (Except WorkError UInt64) :=
  match race.caller with
  | .done result => some result
  | _ => none

end Race

def least? (meets : UInt64 → Bool) (nonce : Nat) : Option UInt64 :=
  if nonce < UInt64.size then
    if meets (UInt64.ofNat nonce) then some (UInt64.ofNat nonce)
    else least? meets (nonce + 1)
  else none
termination_by UInt64.size - nonce

theorem least?_meets {meets : UInt64 → Bool} {start : Nat} {nonce : UInt64}
    (h : least? meets start = some nonce) : meets nonce = true := by
  fun_induction least? meets start with
  | case1 start hstart hmeets =>
      cases h
      exact hmeets
  | case2 start hstart hmeets ih => exact ih h
  | case3 start hstart => cases h

def run (hasher : Hasher) (workers : Nat) (cancelled : Bool)
    (initialHash : Digest) (target : UInt64) : Except WorkError UInt64 :=
  if workersUsed workers = 0 then .error .noWorkers
  else if cancelled then .error .cancelled
  else
    match least? (meetsTarget hasher · initialHash target) 0 with
    | some nonce => .ok nonce
    | none => .error .exhausted

end Search

end ObjectRelay
