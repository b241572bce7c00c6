import CoreWarden.Proofs.Controller.Transcript

/-!
The refresh that ends a workflow: the data of all keys are fetched side by side, and the answers come in
any order.
-/
namespace CoreWarden

theorem Answer.fetched?_of_suits {answer : Answer} {key : CacheKey}
    (h : answer.suits key.request = true) : ∃ result, answer.fetched? = some result := by
  cases key <;> cases answer <;> first | exact ⟨_, rfl⟩ | cases h

namespace Refresh

/-! ### The fetches that are not answered yet -/

variable {refresh refresh' : Refresh}

/-- An answer takes its fetch from those that are waited for, and no other. -/
theorem perm_asks_settle {slot : Nat} {request : Request} (h : (slot, request) ∈ refresh.asks)
    (result : Except Error Json.Value) (cache : Cache) (wall : Time.Timestamp) :
    refresh.asks.Perm ((slot, request) :: (refresh.settle slot result cache wall).1.asks) := by
  obtain ⟨key, hat, rfl⟩ := mem_asks_iff.mp h
  have hsettle : (refresh.settle slot result cache wall).1 =
      ⟨refresh.fetches.set slot (key, some (result.map fun _ => ()))⟩ := by
    rw [settle, hat]
  obtain ⟨hlt, hget⟩ := List.getElem?_eq_some_iff.mp hat
  have hfetches := List.take_append_drop slot refresh.fetches
  rw [List.drop_eq_getElem_cons hlt, hget] at hfetches
  have hlength : (refresh.fetches.take slot).length = slot := List.length_take_of_le (Nat.le_of_lt hlt)
  rw [hsettle, asks, asks, ← hfetches]
  generalize refresh.fetches.take slot = before at hlength ⊢
  subst hlength
  simp only [List.set_append_right _ _ (Nat.le_refl _), Nat.sub_self, List.set_cons_zero,
    List.zipIdx_append, List.zipIdx_cons, List.filter_append, List.filter_cons, Option.isNone_none,
    Option.isNone_some, if_true, Bool.false_eq_true, if_false, List.map_append, List.map_cons, Nat.zero_add]
  exact List.perm_middle

theorem asks_of_isDone (h : refresh.isDone = true) : refresh.asks = [] := by
  rw [List.eq_nil_iff_forall_not_mem]
  rintro ⟨slot, request⟩ hmem
  obtain ⟨key, hat, -⟩ := mem_asks_iff.mp hmem
  have hsome := List.all_eq_true.mp h _ (List.mem_of_getElem? hat)
  cases hsome

theorem settles_of_awaited {s : Shared} {signal : Signal} {notes : List Note}
    (h : Signal.Awaited s.now refresh.asks none signal notes) : ∃ slot request answer refresh' t,
      s.resumeRefresh refresh signal = (refresh', t) ∧ notes = [.answered s.now request answer] ∧
        refresh.asks.Perm ((slot, request) :: refresh'.asks) := by
  cases h with
  | @answer slot request answer ha hsuits =>
    obtain ⟨key, -, rfl⟩ := mem_asks_iff.mp ha
    obtain ⟨result, hresult⟩ := Answer.fetched?_of_suits hsuits
    refine ⟨slot, _, answer, _, _, by rw [Shared.resumeRefresh, hresult], rfl, ?_⟩
    exact perm_asks_settle ha result s.cache s.wall
  | timeUp hd => cases hd

theorem exists_ask (h : refresh.isDone = false) :
    ∃ slot request, (slot, request) ∈ refresh.asks ∧ request ≠ .version := by
  obtain ⟨⟨key, found⟩, hmem, hnot⟩ := List.all_eq_false.mp h
  obtain ⟨slot, hat⟩ := List.getElem?_of_mem hmem
  cases found with
  | some result => exact absurd rfl hnot
  | none =>
    have hne : key.request ≠ .version := by cases key <;> simp [CacheKey.request]
    exact ⟨slot, key.request, mem_asks_iff.mpr ⟨key, hat, rfl⟩, hne⟩

/-! ### The script -/

def calls (begun : Nat) : List Note :=
  [.asked begun .list, .asked begun .proxies, .asked begun .config]

/-- The data of all keys are fetched anew; the answers come in any order, the last of them at `ended`. -/
inductive Refetch (begun : Nat) : List Note → Nat → Prop
  | intro {fetched ended}
      (hf : (fetched.map Note.settles?).Perm [some .list, some .proxies, some .config])
      (hl : (fetched.getLast?).map Note.moment = some ended) :
      Refetch begun (calls begun ++ fetched) ended

/-- A refresh that is under way, with its answers so far. -/
inductive Renewing (begun : Nat) (refresh : Refresh) : List Note → Prop
  | intro {fetched} (hf : (fetched.map Note.settles? ++ refresh.asks.map (some ·.2)).Perm
        [some .list, some .proxies, some .config]) (hd : refresh.isDone = false) :
      Renewing begun refresh (calls begun ++ fetched)

variable {begun : Nat} {notes : List Note}

theorem Renewing.start (s : Shared) :
    Renewing s.now s.startRefresh.1 (s.startRefresh.1.asks.map (.asked s.now ·.2)) := by
  have hnone : Renewing s.now s.startRefresh.1 (calls s.now ++ []) := .intro (List.Perm.refl _) rfl
  exact hnone

theorem Renewing.answered {slot : Nat} {request : Request} (h : Renewing begun refresh notes)
    (hp : refresh.asks.Perm ((slot, request) :: refresh'.asks)) (now : Nat) (answer : Answer) :
    if refresh'.isDone then Refetch begun (notes ++ [.answered now request answer]) now
      else Renewing begun refresh' (notes ++ [.answered now request answer]) := by
  cases h with
  | @intro fetched hf =>
    have hasks := hp.map fun a : Nat × Request => some a.2
    have hmore : ((fetched ++ [Note.answered now request answer]).map Note.settles? ++
        refresh'.asks.map (some ·.2)).Perm [some .list, some .proxies, some .config] := by
      refine List.Perm.trans ?_ hf
      rw [List.map_append, List.append_assoc]
      exact List.Perm.append_left _ hasks.symm
    rw [List.append_assoc]
    split
    · next hd =>
      rw [asks_of_isDone hd, List.map_nil, List.append_nil] at hmore
      exact .intro hmore (by simp [Note.moment])
    · next hd => exact .intro hmore (Bool.eq_false_iff.mpr hd)

theorem Renewing.exists_ask (h : Renewing begun refresh notes) :
    ∃ slot request, (slot, request) ∈ refresh.asks ∧ request ≠ .version := by
  cases h with
  | intro hf hd => exact Refresh.exists_ask hd

end Refresh

end CoreWarden
