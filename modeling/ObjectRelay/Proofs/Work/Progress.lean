import Mathlib.Algebra.GroupWithZero.Nat
import ObjectRelay.Proofs.Work.Report

namespace ObjectRelay.Search

/-- A worker goes through four kinds of turns at each nonce, and ends with two
more. -/
def Worker.rank : Worker → Nat
  | looking nonce => 4 * (UInt64.size - nonce.toNat) + 2
  | asking nonce => 4 * (UInt64.size - nonce.toNat) + 1
  | trying nonce _ => 4 * (UInt64.size - nonce.toNat)
  | claiming _ => 2
  | reporting _ => 1
  | stopped => 0

def Caller.rank : Caller → Nat
  | receiving => 4
  | closing _ => 3
  | joining _ => 2
  | judging => 1
  | done _ => 0

namespace Race

variable {meets : UInt64 → Bool} {race after : Race} {id : Nat} {nonce : UInt64}
  {worker next : Worker}

def rank (race : Race) : Nat :=
  (race.workers.map Worker.rank).sum + race.caller.rank

theorem rank_lt_of_set (hworkers : after.workers = race.workers.set id next)
    (hcaller : after.caller = race.caller)
    (hworker : race.workers[id]? = some worker)
    (hrank : next.rank < worker.rank) : after.rank < race.rank := by
  obtain ⟨hid, rfl⟩ := List.getElem?_eq_some_iff.mp hworker
  have hsplit : race.workers =
      race.workers.take id ++ race.workers[id] ::
        race.workers.drop (id + 1) := by
    rw [List.getElem_cons_drop, List.take_append_drop]
  have hset : after.workers =
      race.workers.take id ++ next :: race.workers.drop (id + 1) := by
    rw [hworkers, List.set_eq_take_append_cons_drop, if_pos hid]
  rw [rank, rank, hcaller, hset, congrArg (List.map Worker.rank) hsplit]
  simp only [List.map_append, List.map_cons, List.sum_append, List.sum_cons]
  omega

theorem rank_onward {count : Nat} (hcount : 0 < count) (nonce : UInt64)
    (left : Nat) :
    (Worker.onward count nonce left).rank <
      (Worker.trying nonce left).rank := by
  have hword := nonce.toNat_lt_size
  unfold Worker.onward next?
  split_ifs with hsize
  · have htoNat : (UInt64.ofNat (nonce.toNat + count)).toNat =
        nonce.toNat + count :=
      UInt64.toNat_ofNat_of_lt' hsize
    cases left <;> simp only [Worker.rank, htoNat] <;> omega
  · simp only [Worker.rank]
    omega

theorem rank_move (hcount : 0 < race.workers.length)
    (hworker : race.workers[id]? = some worker) (hgoes : worker ≠ .stopped) :
    (race.move meets id worker).rank < race.rank := by
  cases worker with
  | looking nonce =>
      refine rank_lt_of_set rfl rfl hworker ?_
      split_ifs <;> simp [Worker.rank]
  | asking nonce =>
      refine rank_lt_of_set rfl rfl hworker ?_
      split_ifs <;> simp [Worker.rank]
  | trying nonce left =>
      refine rank_lt_of_set rfl rfl hworker ?_
      split_ifs
      · have hword := nonce.toNat_lt_size
        simp only [Worker.rank]
        omega
      · exact rank_onward hcount nonce left
  | claiming nonce =>
      refine rank_lt_of_set rfl rfl hworker ?_
      split_ifs <;> simp [Worker.rank]
  | reporting nonce =>
      refine rank_lt_of_set rfl rfl hworker ?_
      simp [Worker.rank]
  | stopped => exact absurd rfl hgoes

theorem rank_proceed (hover : race.isOver = true)
    (hresult : race.result? = none) :
    race.proceed.rank < race.rank := by
  have hcaller : race.proceed.caller.rank < race.caller.rank := by
    cases hphase : race.caller with
    | receiving =>
        simp only [proceed, hphase]
        split
        · simp [Caller.rank]
        · simp [hover, Caller.rank]
    | closing received? => simp [proceed, hphase, Caller.rank]
    | joining received? =>
        cases received? <;> simp [proceed, hphase, hover, Caller.rank]
    | judging => simp [proceed, hphase, Caller.rank]
    | done result => simp [result?, hphase] at hresult
  rw [rank, rank, workers_proceed]
  omega

theorem exists_turn_of_not_done (meets : UInt64 → Bool)
    (hcount : 0 < race.workers.length) (hresult : race.result? = none) :
    ∃ turn, turn ≠ .cancel ∧ (race.turn meets turn).rank < race.rank := by
  by_cases hover : race.isOver = true
  · exact ⟨.caller, by simp, rank_proceed hover hresult⟩
  · rw [isOver_iff] at hover
    push Not at hover
    obtain ⟨id, worker, hworker, hgoes⟩ := hover
    refine ⟨.worker id, by simp, ?_⟩
    simp only [turn, hworker]
    exact rank_move hcount hworker hgoes

theorem exists_done (meets : UInt64 → Bool) (hcount : 0 < race.workers.length) :
    ∃ turns, .cancel ∉ turns ∧
      ((race.run meets turns).result?).isSome = true := by
  induction hrank : race.rank using Nat.strongRecOn generalizing race with
  | ind rank ih =>
      cases hresult : race.result? with
      | some result => exact ⟨[], by simp, by simp [run, hresult]⟩
      | none =>
          obtain ⟨turn, hturn, hless⟩ :=
            exists_turn_of_not_done meets hcount hresult
          have hlength : 0 < (race.turn meets turn).workers.length := by
            rwa [length_turn]
          obtain ⟨turns, hturns, hdone⟩ := ih _ (hrank ▸ hless) hlength rfl
          exact ⟨turn :: turns, by simp [Ne.symm hturn, hturns], hdone⟩

end Race

end ObjectRelay.Search
