import Mathlib.Data.List.TakeWhile
import ZkRuntime.RpcAuth.Model.NetIp
/-!
# Helpers — host and port

`splitHostPort` takes apart what `joinHostPort` puts together
(`splitHostPort_join`), and nothing it takes apart has another shape
(`Split`): the host stands as it is, without a colon, or between brackets.
-/

namespace ZkRuntime

namespace RpcAuth

/-- The text around the last `c`. -/
theorem exists_last {c : UInt8} {s : Bytes} (h : c ∈ s) : ∃ l r, s = l ++ c :: r ∧ c ∉ r := by
  induction s with
  | nil => cases h
  | cons b s ih =>
    by_cases hs : c ∈ s
    · obtain ⟨l, r, rfl, hr⟩ := ih hs
      exact ⟨b :: l, r, rfl, hr⟩
    · rcases List.mem_cons.1 h with rfl | h
      · exact ⟨[], s, rfl, hs⟩
      · exact absurd h hs

theorem findIdx?_of_notMem {c : UInt8} {s : Bytes} (h : c ∉ s) : s.findIdx? (· == c) = none := by
  rw [List.findIdx?_eq_none_iff]
  intro x hx
  rw [beq_eq_false_iff_ne]
  rintro rfl
  exact h hx

theorem findIdx?_append_cons {c : UInt8} {l : Bytes} (r : Bytes) (h : c ∉ l) :
    (l ++ c :: r).findIdx? (· == c) = some l.length := by
  rw [List.findIdx?_append, findIdx?_of_notMem h, List.findIdx?_cons, beq_self_eq_true, if_pos rfl]
  simp

theorem lastIndexByte_append {c : UInt8} {r : Bytes} (l : Bytes) (hr : c ∉ r) :
    lastIndexByte (l ++ c :: r) c = some l.length := by
  have hrev : (l ++ c :: r).reverse = r.reverse ++ c :: l.reverse := by simp
  rw [lastIndexByte, hrev, findIdx?_append_cons _ (by rwa [List.mem_reverse]), Option.map_some,
    List.length_reverse, List.length_append, List.length_cons]
  congr 1
  omega

theorem lastIndexByte_eq_none {c : UInt8} {s : Bytes} (h : c ∉ s) : lastIndexByte s c = none := by
  rw [lastIndexByte, findIdx?_of_notMem (by rwa [List.mem_reverse]), Option.map_none]

/-- **The two shapes of an address**: as `SplitHostPort` reads it. -/
inductive Split : Bytes → Bytes → Bytes → Prop
  | plain {host port : Bytes} : 0x3A ∉ host → 0x3A ∉ port → 0x5B ∉ host → 0x5D ∉ host → 0x5B ∉ port →
      0x5D ∉ port → Split (host ++ 0x3A :: port) host port
  | bracketed {host port : Bytes} : 0x3A ∉ port → 0x5B ∉ host → 0x5D ∉ host → 0x5B ∉ port → 0x5D ∉ port →
      Split (0x5B :: (host ++ 0x5D :: 0x3A :: port)) host port

theorem head?_append_ne {host port : Bytes} (h : (0x5B : UInt8) ∉ host) :
    ((host ++ 0x3A :: port).head? == some 0x5B) = false := by
  rw [beq_eq_false_iff_ne]
  cases host with
  | nil => exact fun heq => absurd (Option.some.inj heq) (by decide)
  | cons b host =>
    intro heq
    rw [List.cons_append, List.head?_cons, Option.some.injEq] at heq
    exact h (heq ▸ List.mem_cons_self)

theorem splitHost_plain {host port : Bytes} (hcolon : (0x3A : UInt8) ∉ host) (hopen : (0x5B : UInt8) ∉ host) :
    splitHost (host ++ 0x3A :: port) host.length = some (host, 0, 0) := by
  have hhead : (host ++ 0x3A :: port).head? ≠ some 0x5B := by
    exact beq_eq_false_iff_ne.1 (head?_append_ne hopen)
  rw [splitHost, if_neg hhead, List.take_left, if_neg hcolon]

theorem splitHost_bracketed {host port : Bytes} (hclose : (0x5D : UInt8) ∉ host) :
    splitHost (0x5B :: (host ++ 0x5D :: 0x3A :: port)) (host.length + 2) =
      some (host, 1, host.length + 2) := by
  have hcons : (0x5B :: (host ++ 0x5D :: 0x3A :: port) : Bytes) = (0x5B :: host) ++ 0x5D :: 0x3A :: port := rfl
  have hfirst : (0x5D : UInt8) ∉ (0x5B :: host : Bytes) := by
    rw [List.mem_cons, not_or]
    exact ⟨by decide, hclose⟩
  rw [splitHost, if_pos (by rfl), hcons, findIdx?_append_cons _ hfirst]
  dsimp only
  rw [if_pos (by rw [List.length_cons]), List.take_left]
  rfl

/-- **What has one of the shapes is taken apart.** -/
theorem splitHostPort_of_split {a host port : Bytes} (h : Split a host port) :
    splitHostPort a = some (host, port) := by
  cases h with
  | plain hcolon hport hopen hclose hopen' hclose' =>
    have hno : ¬ ((0x5B : UInt8) ∈ (host ++ 0x3A :: port).drop 0 ∨ 0x5D ∈ (host ++ 0x3A :: port).drop 0) := by
      simp [hopen, hclose, hopen', hclose']
    rw [splitHostPort, lastIndexByte_append host hport]
    dsimp only
    rw [splitHost_plain hcolon hopen]
    dsimp only
    rw [if_neg hno, ← List.drop_drop, List.drop_left]
    rfl
  | bracketed hport hopen hclose hopen' hclose' =>
    have hlast : (0x5B :: (host ++ 0x5D :: 0x3A :: port) : Bytes) = (0x5B :: (host ++ [0x5D])) ++ 0x3A :: port := by
      simp
    have hlen : (0x5B :: (host ++ [0x5D]) : Bytes).length = host.length + 2 := by simp
    have hdrop : (0x5B :: (host ++ 0x5D :: 0x3A :: port) : Bytes).drop (host.length + 2) = 0x3A :: port := by
      rw [hlast, ← hlen, List.drop_left]
    have hno : ¬ ((0x5B : UInt8) ∈ (0x5B :: (host ++ 0x5D :: 0x3A :: port) : Bytes).drop 1 ∨
        0x5D ∈ (0x5B :: (host ++ 0x5D :: 0x3A :: port) : Bytes).drop (host.length + 2)) := by
      rw [hdrop]
      simp [hopen, hopen', hclose']
    rw [splitHostPort, hlast, lastIndexByte_append _ hport, ← hlast, hlen]
    dsimp only
    rw [splitHost_bracketed hclose]
    dsimp only
    rw [if_neg hno, ← List.drop_drop, hdrop]
    rfl

/-- A host between brackets, where the closing one stands in front of the
last colon. -/
theorem split_bracketed {l r host : Bytes} {j k : ℕ} (hr : (0x3A : UInt8) ∉ r)
    (hhead : (l ++ 0x3A :: r).head? = some 0x5B) (h : splitHost (l ++ 0x3A :: r) l.length = some (host, j, k))
    (hopen : (0x5B : UInt8) ∉ (l ++ 0x3A :: r).drop j) (hclose : (0x5D : UInt8) ∉ (l ++ 0x3A :: r).drop k) :
    Split (l ++ 0x3A :: r) host r := by
  rw [splitHost, if_pos hhead] at h
  by_cases hmem : (0x5D : UInt8) ∈ l ++ 0x3A :: r
  · obtain ⟨p, q, hpq, hp⟩ := List.eq_append_cons_of_mem hmem
    rw [hpq] at h hhead hopen hclose
    rw [findIdx?_append_cons q hp] at h
    dsimp only at h
    split_ifs at h with hend
    rw [List.take_left, Option.some.injEq, Prod.mk.injEq, Prod.mk.injEq] at h
    obtain ⟨rfl, rfl, rfl⟩ := h
    -- the bracket is what stands in front of the colon
    have hl : l = p ++ [0x5D] ∧ 0x3A :: r = q := by
      refine List.append_inj ?_ (by rw [List.length_append, List.length_singleton, hend])
      rw [hpq, List.append_assoc, List.singleton_append]
    obtain ⟨rfl, rfl⟩ := hl
    cases p with
    | nil => exact absurd (Option.some.inj hhead) (by decide)
    | cons b host =>
      rw [List.cons_append, List.head?_cons, Option.some.injEq] at hhead
      subst hhead
      have hafter : (0x5B :: host ++ 0x5D :: 0x3A :: r : Bytes).drop ((0x5B :: host : Bytes).length + 1) =
          0x3A :: r := by
        rw [← List.drop_drop, List.drop_left]
        rfl
      rw [hafter, List.mem_cons, not_or] at hclose
      rw [List.cons_append, List.drop_one, List.tail_cons, List.mem_append, not_or, List.mem_cons, not_or,
        List.mem_cons, not_or] at hopen
      rw [List.mem_cons, not_or] at hp
      rw [List.append_assoc, List.singleton_append, List.cons_append, List.drop_one, List.tail_cons]
      exact .bracketed hr hopen.1 hp.2 hopen.2.2.2 hclose.2
  · rw [findIdx?_of_notMem hmem] at h
    cases h

/-- **And nothing else is.** -/
theorem split_of_splitHostPort {a host port : Bytes} (h : splitHostPort a = some (host, port)) :
    Split a host port := by
  by_cases hcolon : (0x3A : UInt8) ∈ a
  · obtain ⟨l, r, rfl, hr⟩ := exists_last hcolon
    rw [splitHostPort, lastIndexByte_append l hr] at h
    dsimp only at h
    cases hsplit : splitHost (l ++ 0x3A :: r) l.length with
    | none =>
      rw [hsplit] at h
      cases h
    | some p =>
      obtain ⟨host', j, k⟩ := p
      rw [hsplit] at h
      dsimp only at h
      split_ifs at h with hno
      rw [not_or] at hno
      rw [← List.drop_drop, List.drop_left, Option.some.injEq, Prod.mk.injEq] at h
      obtain ⟨rfl, rfl⟩ := h
      by_cases hhead : (l ++ 0x3A :: r).head? = some 0x5B
      · exact split_bracketed hr hhead hsplit hno.1 hno.2
      · rw [splitHost, if_neg hhead, List.take_left] at hsplit
        split_ifs at hsplit with hin
        cases hsplit
        rw [List.drop_zero, List.mem_append, List.mem_append, not_or, not_or, List.mem_cons, not_or, List.mem_cons,
          not_or] at hno
        exact .plain hin hr hno.1.1 hno.2.1 hno.1.2.2 hno.2.2.2
  · rw [splitHostPort, lastIndexByte_eq_none hcolon] at h
    cases h

/-- A host without brackets, joined and taken apart again. -/
theorem splitHostPort_join {host port : Bytes} (hopen : (0x5B : UInt8) ∉ host) (hclose : (0x5D : UInt8) ∉ host)
    (hport : ∀ c ∈ port, Bytes.isDigit c = true) : splitHostPort (joinHostPort host port) = some (host, port) := by
  have hcolon : (0x3A : UInt8) ∉ port := fun h => absurd (hport _ h) (by decide)
  have hopen' : (0x5B : UInt8) ∉ port := fun h => absurd (hport _ h) (by decide)
  have hclose' : (0x5D : UInt8) ∉ port := fun h => absurd (hport _ h) (by decide)
  rw [joinHostPort]
  split_ifs with hin
  · exact splitHostPort_of_split (.bracketed hcolon hopen hclose hopen' hclose')
  · exact splitHostPort_of_split (.plain hin hcolon hopen hclose hopen' hclose')

end RpcAuth

end ZkRuntime
