import Agora.Lib.Ranking

namespace Agora

/-!
# Paging by a key

A page holds the next rows after a key, and the key of its last row where there are more.  Following
these keys from the beginning gives every row once, in order, and comes to an end
(`exists_followed`).
-/

section Keyset

variable {α κ γ ε Page : Type} [LinearOrder κ] {key : α → κ} {l : List α}

/-- The rows after a key, in order; all of them where there is no key. -/
def afterKey (key : α → κ) (l : List α) (k : Option κ) : List α :=
  (ranked key l).filter fun a => k.all (· < key a)

@[simp] theorem afterKey_none : afterKey key l none = ranked key l := by
  simp [afterKey]

/-- Ranking what is after a key is taking what is after it of the ranking. -/
theorem ranked_filter_eq_afterKey (hkey : Set.InjOn key {a | a ∈ l}) {k : Option κ} {p : α → Bool}
    (h : ∀ a ∈ l, p a = true ↔ ∀ b ∈ k, b < key a) :
    ranked key (l.filter p) = afterKey key l k := by
  rw [ranked_filter hkey]
  apply List.filter_congr
  intro a ha
  rw [Bool.eq_iff_iff, h a (mem_ranked.mp ha)]
  cases k with
  | none => simp
  | some b => simp

theorem pairwise_afterKey (hkey : Set.InjOn key {a | a ∈ l}) (hl : l.Nodup) (k : Option κ) :
    (afterKey key l k).Pairwise fun a b => key a < key b :=
  (pairwise_lt_ranked hkey hl).filter _

/-- What comes after the last row of a page is what the page has left. -/
theorem afterKey_last (hkey : Set.InjOn key {a | a ∈ l}) (hl : l.Nodup) {k : Option κ}
    {page rest : List α} {a : α} (hsplit : afterKey key l k = page ++ rest)
    (hlast : page.getLast? = some a) : afterKey key l (some (key a)) = rest := by
  have hsorted := pairwise_afterKey hkey hl k
  have ha : a ∈ afterKey key l k := by
    rw [hsplit]
    exact List.mem_append_left rest (List.mem_of_getLast? hlast)
  have hk : k.all (· < key a) = true := (List.mem_filter.mp ha).2
  -- after `a` is after `k`
  have hnarrow : afterKey key l (some (key a))
      = (afterKey key l k).filter fun b => decide (key a < key b) := by
    unfold afterKey
    rw [List.filter_filter]
    apply List.filter_congr
    intro b _
    by_cases hab : key a < key b
    · have hkb : k.all (· < key b) = true := by
        cases k with
        | none => rfl
        | some c =>
          have hca : c < key a := of_decide_eq_true hk
          exact decide_eq_true (hca.trans hab)
      simp [hab, hkb]
    · simp [hab]
  rw [hnarrow, hsplit, List.filter_append]
  rw [hsplit, List.pairwise_append] at hsorted
  obtain ⟨hpage, -, hcross⟩ := hsorted
  have hbefore : (page.filter fun b => decide (key a < key b)) = [] := by
    obtain ⟨front, rfl⟩ := List.getLast?_eq_some_iff.mp hlast
    apply List.filter_eq_nil_iff.mpr
    intro b hb
    rw [decide_eq_true_eq, not_lt]
    rcases List.mem_append.mp hb with hb | hb
    · exact le_of_lt ((List.pairwise_append.mp hpage).2.2 b hb a List.mem_cons_self)
    · rw [List.mem_singleton.mp hb]
  have hbehind : (rest.filter fun b => decide (key a < key b)) = rest := by
    apply List.filter_eq_self.mpr
    intro b hb
    exact decide_eq_true (hcross a (List.mem_of_getLast? hlast) b hb)
  rw [hbefore, hbehind, List.nil_append]

/-! ### Following the keys -/

/-- The pages that are read from a cursor to the end. -/
inductive Followed (request : Option γ → Except ε Page) (next : Page → Option γ) :
    Option γ → List Page → Prop
  | last {cursor : Option γ} {page : Page} : request cursor = .ok page → next page = none →
      Followed request next cursor [page]
  | more {cursor : Option γ} {c : γ} {page : Page} {pages : List Page} :
      request cursor = .ok page → next page = some c → Followed request next (some c) pages →
      Followed request next cursor (page :: pages)

/-- A request answers every key with the page after it. -/
structure ServesPages (request : Option γ → Except ε Page) (entries : Page → List α)
    (next : Page → Option γ) (encode : κ → γ) (key : α → κ) (l : List α) (limit : ℕ) : Prop where
  serves : ∀ k : Option κ, ∃ page, request (k.map encode) = .ok page
    ∧ entries page = (afterKey key l k).take limit
    ∧ next page = if limit < (afterKey key l k).length then
        ((afterKey key l k).take limit).getLast?.map (encode ∘ key) else none

variable {request : Option γ → Except ε Page} {entries : Page → List α} {next : Page → Option γ}
  {encode : κ → γ} {limit : ℕ}

/-- A page that is cut off has a last row. -/
theorem exists_getLast_take {rows : List α} (hlimit : 0 < limit) (hmore : limit < rows.length) :
    ∃ a, (rows.take limit).getLast? = some a := by
  have hne : rows.take limit ≠ [] := by
    intro hnil
    have hlength := congrArg List.length hnil
    rw [List.length_take, List.length_nil] at hlength
    omega
  exact ⟨_, List.getLast?_eq_some_getLast hne⟩

/-- A page without a next one has all the rest. -/
theorem ServesPages.entries_of_last (h : ServesPages request entries next encode key l limit)
    (hlimit : 0 < limit) {k : Option κ} {page : Page} (hpage : request (k.map encode) = .ok page)
    (hlast : next page = none) : entries page = afterKey key l k := by
  obtain ⟨page', hpage', hentries, hnext⟩ := h.serves k
  obtain rfl := Except.ok.inj (hpage.symm.trans hpage')
  by_cases hmore : limit < (afterKey key l k).length
  · obtain ⟨a, ha⟩ := exists_getLast_take hlimit hmore
    rw [if_pos hmore, ha, hlast] at hnext
    cases hnext
  · rw [hentries, List.take_of_length_le (by omega)]

/-- **Paging.**  From any key on the pages hold what comes after it, and there is at most one page
    more than there are rows. -/
theorem ServesPages.exists_followed_from (h : ServesPages request entries next encode key l limit)
    (hkey : Set.InjOn key {a | a ∈ l}) (hl : l.Nodup) (hlimit : 0 < limit) (k : Option κ) :
    ∃ pages, Followed request next (k.map encode) pages
      ∧ pages.flatMap entries = afterKey key l k
      ∧ pages.length ≤ (afterKey key l k).length + 1 := by
  induction hn : (afterKey key l k).length using Nat.strong_induction_on generalizing k with
  | _ n ih =>
    obtain ⟨page, hpage, hentries, hnext⟩ := h.serves k
    by_cases hmore : limit < (afterKey key l k).length
    · -- the page is full, and its last row is where the next one starts
      rw [if_pos hmore] at hnext
      obtain ⟨a, ha⟩ := exists_getLast_take hlimit hmore
      have hrest := afterKey_last hkey hl (List.take_append_drop limit (afterKey key l k)).symm ha
      rw [ha] at hnext
      have hless : (afterKey key l (some (key a))).length < n := by
        rw [hrest, List.length_drop]
        omega
      obtain ⟨pages, hpages, hflat, hlength⟩ := ih _ hless (some (key a)) rfl
      refine ⟨page :: pages, .more hpage hnext hpages, ?_, ?_⟩
      · rw [List.flatMap_cons, hentries, hflat, hrest, List.take_append_drop]
      · rw [List.length_cons]
        omega
    · rw [if_neg hmore] at hnext
      refine ⟨[page], .last hpage hnext, ?_, ?_⟩
      · rw [List.flatMap_cons, hentries, List.take_of_length_le (by omega)]
        simp
      · simp

theorem ServesPages.exists_followed (h : ServesPages request entries next encode key l limit)
    (hkey : Set.InjOn key {a | a ∈ l}) (hl : l.Nodup) (hlimit : 0 < limit) :
    ∃ pages, Followed request next none pages ∧ pages.flatMap entries = ranked key l
      ∧ pages.length ≤ l.length + 1 := by
  have hall := h.exists_followed_from hkey hl hlimit none
  rwa [afterKey_none, length_ranked] at hall

end Keyset

end Agora
