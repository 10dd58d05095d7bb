import Mathlib.Data.List.Sort
import Mathlib.Data.List.Chain
import Mathlib.Order.WithBot

/-!
# Keyset pagination

A client reads a table page by page: every request asks for a number of rows
after a position, in the order of their keys, and the next one starts at the
key of the last row of the page.  The table may change between the requests.
-/

namespace KeysetPaging

/-- A request for rows after a position.  The rows are those of the moment. -/
structure Request (α κ : Type*) where
  position : WithBot κ
  rows : List α
  limit : ℕ

variable {α κ : Type*} [LinearOrder κ]

section

variable (key : α → κ)

namespace Request

variable (request : Request α κ)

/-- The rows after the position, in the order of their keys. -/
def following : List α :=
  (request.rows.filter fun row => request.position < key row).insertionSort
    fun a b => key a ≤ key b

def page : List α := (request.following key).take request.limit

def HasMore : Prop := request.limit < (request.following key).length

/-- The key of the last row of the page. -/
def next : WithBot κ := (request.page key).getLast?.map key

end Request

/-- A request starts where the page before it ended, which was not the last one. -/
def Request.Continues (request later : Request α κ) : Prop :=
  0 < request.limit ∧ request.HasMore key ∧ later.position = request.next key

def Follows (requests : List (Request α κ)) : Prop :=
  requests.IsChain (Request.Continues key)

/-- The client got a page which has no successor. -/
def Finished (requests : List (Request α κ)) : Prop :=
  ∃ last ∈ requests.getLast?, ¬last.HasMore key

end

variable {key : α → κ} {request later : Request α κ} {requests : List (Request α κ)}

/-! ## One request -/

namespace Request

theorem mem_following {row : α} :
    row ∈ request.following key ↔ row ∈ request.rows ∧ request.position < key row := by
  unfold following
  rw [List.mem_insertionSort, List.mem_filter, decide_eq_true_eq]

theorem following_pairwise (hdistinct : (request.rows.map key).Nodup) :
    (request.following key).Pairwise fun a b => key a < key b := by
  have hsorted : (request.following key).Pairwise fun a b => key a ≤ key b := by
    have htotal : Std.Total fun a b : α => key a ≤ key b := ⟨fun a b => le_total _ _⟩
    have htrans : IsTrans α fun a b => key a ≤ key b := ⟨fun _ _ _ => le_trans⟩
    exact List.pairwise_insertionSort _ _
  have hkeys : ((request.following key).map key).Nodup := by
    have hperm := List.perm_insertionSort (fun a b => key a ≤ key b)
      (request.rows.filter fun row => request.position < key row)
    exact ((hperm.map key).nodup_iff).mpr
      (hdistinct.sublist (List.filter_sublist.map key))
  have hne := List.pairwise_map.mp hkeys
  exact (hsorted.and hne).imp fun h => lt_of_le_of_ne h.1 h.2

/-- The rows behind a row are those which follow its key. -/
theorem following_of_append (hdistinct : (request.rows.map key).Nodup) {first last : List α}
    {row : α} (h : request.following key = first ++ row :: last) :
    ({ request with position := key row } : Request α κ).following key = last := by
  have hpairwise := following_pairwise hdistinct
  rw [h, List.pairwise_append, List.pairwise_cons] at hpairwise
  obtain ⟨-, ⟨hbehind, hlast⟩, hbefore⟩ := hpairwise
  have hsorted : (({ request with position := key row } : Request α κ).following
      key).Pairwise fun a b => key a < key b := following_pairwise hdistinct
  have hmem : ∀ other, other ∈ ({ request with position := key row } : Request α κ).following
      key ↔ other ∈ last := by
    intro other
    have hfollowing : other ∈ request.following key ↔
        other ∈ request.rows ∧ request.position < key other := mem_following
    have hrow : request.position < key row := by
      have hmem : row ∈ request.following key := by
        rw [h]
        exact List.mem_append_right _ List.mem_cons_self
      exact (mem_following.mp hmem).2
    rw [mem_following, WithBot.coe_lt_coe]
    constructor
    · rintro ⟨hother, hlt⟩
      have hposition := hrow.trans (WithBot.coe_lt_coe.mpr hlt)
      have hsplit := hfollowing.mpr ⟨hother, hposition⟩
      rw [h, List.mem_append, List.mem_cons] at hsplit
      rcases hsplit with hfirst | rfl | hlast
      · exact absurd hlt (hbefore other hfirst row List.mem_cons_self).asymm
      · exact absurd hlt (lt_irrefl _)
      · exact hlast
    · intro hother
      have hsplit : other ∈ request.following key := by
        rw [h]
        exact List.mem_append_right _ (List.mem_cons_of_mem _ hother)
      exact ⟨(mem_following.mp hsplit).1, hbehind other hother⟩
  have hperm := (List.perm_ext_iff_of_nodup (hsorted.imp fun hlt heq => absurd
    (congrArg key heq) hlt.ne) (hlast.imp fun hlt heq => absurd (congrArg key heq)
      hlt.ne)).mpr hmem
  refine hperm.eq_of_pairwise ?_ hsorted hlast
  intro a b _ _ hab hba
  exact absurd hba hab.asymm

theorem lt_of_mem_page {row : α} (hrow : row ∈ request.page key) :
    request.position < key row :=
  (mem_following.mp (List.mem_of_mem_take hrow)).2

theorem mem_rows_of_mem_page {row : α} (hrow : row ∈ request.page key) : row ∈ request.rows :=
  (mem_following.mp (List.mem_of_mem_take hrow)).1

theorem page_pairwise (hdistinct : (request.rows.map key).Nodup) :
    (request.page key).Pairwise fun a b => key a < key b :=
  (following_pairwise hdistinct).sublist (List.take_sublist _ _)

theorem next_eq (hpage : request.page key ≠ []) :
    request.next key = ((key ((request.page key).getLast hpage) : κ) : WithBot κ) := by
  unfold next
  rw [List.getLast?_eq_some_getLast hpage]
  rfl

/-- The next position is the greatest key of the page. -/
theorem le_next (hdistinct : (request.rows.map key).Nodup) {row : α}
    (hrow : row ∈ request.page key) : key row ≤ request.next key := by
  have hne : request.page key ≠ [] := List.ne_nil_of_mem hrow
  rw [next_eq hne, WithBot.coe_le_coe]
  have hpairwise := page_pairwise hdistinct
  rw [← List.dropLast_append_getLast hne, List.pairwise_append] at hpairwise
  rw [← List.dropLast_append_getLast hne, List.mem_append, List.mem_singleton] at hrow
  rcases hrow with hinit | rfl
  · exact (hpairwise.2.2 row hinit _ (List.mem_singleton_self _)).le
  · exact le_refl _

theorem HasMore.page_ne_nil (h : request.HasMore key) (hlimit : 0 < request.limit) :
    request.page key ≠ [] := by
  intro hnil
  have hlength := congrArg List.length hnil
  unfold HasMore at h
  rw [page, List.length_take, List.length_nil] at hlength
  omega

/-- A page moves the position forward. -/
theorem position_lt_next (hpage : request.page key ≠ []) :
    request.position < request.next key := by
  rw [next_eq hpage]
  exact lt_of_mem_page (List.getLast_mem hpage)

/-- A row after the position is on the page, or waits behind it. -/
theorem mem_page_or (hdistinct : (request.rows.map key).Nodup) (hlimit : 0 < request.limit)
    {row : α} (hrow : row ∈ request.rows) (hposition : request.position < key row) :
    row ∈ request.page key ∨ (request.HasMore key ∧ request.next key < key row) := by
  have hmem : row ∈ request.following key := mem_following.mpr ⟨hrow, hposition⟩
  rw [← List.take_append_drop request.limit (request.following key), List.mem_append] at hmem
  rcases hmem with hpage | hdrop
  · exact .inl hpage
  · have hmore : request.HasMore key := by
      by_contra hnone
      rw [HasMore, not_lt] at hnone
      rw [List.drop_eq_nil_of_le hnone] at hdrop
      cases hdrop
    refine .inr ⟨hmore, ?_⟩
    have hpage := hmore.page_ne_nil hlimit
    have hpairwise := following_pairwise hdistinct
    rw [← List.take_append_drop request.limit (request.following key),
      List.pairwise_append] at hpairwise
    rw [next_eq hpage, WithBot.coe_lt_coe]
    exact hpairwise.2.2 _ (List.getLast_mem hpage) row hdrop

end Request

/-! ## The requests of a client -/

theorem Follows.pairwise (h : Follows key requests) :
    requests.Pairwise fun request later => request.next key ≤ later.position := by
  let before := fun request later : Request α κ =>
    request.position < request.next key ∧ request.next key ≤ later.position
  have hchain : requests.IsChain before := by
    refine h.imp ?_
    rintro request later ⟨hlimit, hmore, hnext⟩
    exact ⟨Request.position_lt_next (hmore.page_ne_nil hlimit), hnext.symm.le⟩
  have htrans : IsTrans (Request α κ) before := by
    refine ⟨fun request later last h hlast => ⟨h.1, ?_⟩⟩
    exact (h.2.trans hlast.1.le).trans hlast.2
  exact hchain.pairwise.imp fun h => h.2

/-- No page repeats a row, or shows one out of order. -/
theorem Follows.pages_pairwise (h : Follows key requests)
    (hdistinct : ∀ request ∈ requests, (request.rows.map key).Nodup) :
    (requests.flatMap (Request.page key)).Pairwise fun a b => key a < key b := by
  rw [List.flatMap_def, List.pairwise_flatten]
  constructor
  · intro page hpage
    obtain ⟨request, hrequest, rfl⟩ := List.mem_map.mp hpage
    exact Request.page_pairwise (hdistinct request hrequest)
  · rw [List.pairwise_map]
    refine h.pairwise.imp_of_mem ?_
    intro request later hrequest hlater hcontinues a ha b hb
    have hbefore := Request.le_next (hdistinct request hrequest) ha
    have hafter := Request.lt_of_mem_page hb
    exact WithBot.coe_lt_coe.mp (lt_of_le_of_lt (hbefore.trans hcontinues) hafter)

theorem Follows.keys_nodup (h : Follows key requests)
    (hdistinct : ∀ request ∈ requests, (request.rows.map key).Nodup) :
    ((requests.flatMap (Request.page key)).map key).Nodup := by
  rw [List.Nodup, List.pairwise_map]
  exact (h.pages_pairwise hdistinct).imp fun hlt => hlt.ne

section

variable {tracked : α → Prop}

/-- A row whose key does not fall is shown, when it is there at every request. -/
theorem Follows.exists_mem_page (hfollows : Follows key requests)
    (hfinished : Finished key requests) (hlimits : ∀ request ∈ requests, 0 < request.limit)
    (hdistinct : ∀ request ∈ requests, (request.rows.map key).Nodup)
    (hpresent : ∀ request ∈ requests, ∃ row ∈ request.rows, tracked row)
    (hrises : requests.Pairwise fun request later => ∀ row ∈ request.rows,
      ∀ other ∈ later.rows, tracked row → tracked other → key row ≤ key other)
    (hstart : ∀ first ∈ requests.head?, ∀ row ∈ first.rows, tracked row →
      first.position < key row) :
    ∃ request ∈ requests, ∃ row ∈ request.page key, tracked row := by
  induction requests with
  | nil =>
      obtain ⟨last, hlast, -⟩ := hfinished
      cases hlast
  | cons request rest ih =>
      obtain ⟨row, hrow, htracked⟩ := hpresent request List.mem_cons_self
      have hposition := hstart request rfl row hrow htracked
      rcases Request.mem_page_or (hdistinct request List.mem_cons_self)
        (hlimits request List.mem_cons_self) hrow hposition with hpage | ⟨hmore, hbehind⟩
      · exact ⟨request, List.mem_cons_self, row, hpage, htracked⟩
      · cases rest with
        | nil =>
            obtain ⟨last, hlast, hend⟩ := hfinished
            cases hlast
            exact absurd hmore hend
        | cons later rest =>
            obtain ⟨⟨-, -, hnext⟩, hrest⟩ := List.isChain_cons_cons.mp hfollows
            obtain ⟨hrow', hrises⟩ := List.pairwise_cons.mp hrises
            have hfinished' : Finished key (later :: rest) := hfinished
            obtain ⟨found, hfound, result⟩ := ih hrest hfinished'
              (fun r hr => hlimits r (List.mem_cons_of_mem _ hr))
              (fun r hr => hdistinct r (List.mem_cons_of_mem _ hr))
              (fun r hr => hpresent r (List.mem_cons_of_mem _ hr)) hrises
              (by
                rintro first ⟨⟩ other hother hkept
                rw [hnext]
                refine lt_of_lt_of_le hbehind (WithBot.coe_le_coe.mpr ?_)
                exact hrow' later List.mem_cons_self row hrow other hother htracked hkept)
            exact ⟨found, List.mem_cons_of_mem _ hfound, result⟩

end

end KeysetPaging
