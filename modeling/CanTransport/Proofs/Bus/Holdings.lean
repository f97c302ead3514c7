import CanTransport.Proofs.Bus.Actions
import CanTransport.Proofs.Kernel.Acquisition
import Mathlib.Data.List.Nodup
import Mathlib.Data.List.Pairwise
/-!
# Holdings

Which part of a kernel's inventory belongs to one bus among others: the sockets and mappings whose
numbers were given out to it. They are the parts of some resources, to which an acquisition adds and
from which a release takes away.
-/

namespace CanTransport

/-- What the kernel knows of a resource. -/
def Resource.parts (r : Resource) : Descriptor × Option (Descriptor × Geometry) := (r.key, r.ring)

namespace Inventory

/-- What some resources consist of. -/
def ofResources (rs : List Resource) : Inventory where
  raws := rs.map Resource.key
  packets := rs.flatMap Resource.packets
  mappings := rs.flatMap Resource.packets

theorem ofResources_singleton (r : Resource) : ofResources [r] = r.inventory := by
  ext1 <;> simp [ofResources, Resource.inventory]

theorem ofResources_append (rs rs' : List Resource) :
    ofResources (rs ++ rs') = ofResources rs ++ ofResources rs' := by
  ext1 <;> simp [ofResources]

/-- Whether a socket is marked closed is nothing that a kernel knows. -/
theorem ofResources_of_parts {rs rs' : List Resource}
    (h : rs'.map Resource.parts = rs.map Resource.parts) : ofResources rs' = ofResources rs := by
  have hparts : ∀ rs : List Resource, ofResources rs =
      ⟨(rs.map Resource.parts).map (·.1),
        (rs.map Resource.parts).flatMap fun part => part.2.toList.map (·.1),
        (rs.map Resource.parts).flatMap fun part => part.2.toList.map (·.1)⟩ := by
    intro rs
    ext1 <;> simp only [ofResources, List.map_map, List.flatMap_map] <;> rfl
  rw [hparts rs', h, ← hparts rs]

theorem filter_append (p : Descriptor → Bool) (i j : Inventory) :
    (i ++ j).filter p = i.filter p ++ j.filter p := by
  ext1 <;> simp [filter]

theorem filter_congr {p q : Descriptor → Bool} {i : Inventory} (h : ∀ fd ∈ i.all, p fd = q fd) :
    i.filter p = i.filter q := by
  simp only [mem_all] at h
  ext1
  · exact List.filter_congr fun fd hfd => h fd (Or.inl hfd)
  · exact List.filter_congr fun fd hfd => h fd (Or.inr (Or.inl hfd))
  · exact List.filter_congr fun fd hfd => h fd (Or.inr (Or.inr hfd))

theorem filter_true (i : Inventory) : i.filter (fun _ => true) = i := by
  ext1 <;> simp [filter]

theorem filter_false (i : Inventory) : i.filter (fun _ => false) = {} := by
  ext1 <;> simp [filter]

/-- An inventory without the parts of a resource. -/
def remove (r : Resource) (i : Inventory) : Inventory where
  raws := i.raws.filter (· != r.key)
  packets := i.packets.filter (· ∉ r.packets)
  mappings := i.mappings.filter (· ∉ r.packets)

theorem filter_remove (p : Descriptor → Bool) (r : Resource) (i : Inventory) :
    (i.remove r).filter p = (i.filter p).remove r := by
  ext1 <;> simp only [remove, filter, List.filter_filter] <;> congr 1 <;> funext fd <;>
    exact Bool.and_comm _ _

theorem filter_flatMap_of {α β : Type} {l : List α} {f : α → List β} {p : β → Bool} {c : α → Bool}
    (hdrop : ∀ x ∈ l, c x = false → ∀ y ∈ f x, p y = false)
    (hkeep : ∀ x ∈ l, c x = true → ∀ y ∈ f x, p y = true) :
    (l.flatMap f).filter p = (l.filter c).flatMap f := by
  induction l with
  | nil => rfl
  | cons x l ih =>
    have hrest := ih (fun y hy => hdrop y (List.mem_cons_of_mem _ hy))
      (fun y hy => hkeep y (List.mem_cons_of_mem _ hy))
    rw [List.flatMap_cons, List.filter_append, hrest]
    cases hx : c x with
    | true =>
      have hall := hkeep x List.mem_cons_self hx
      rw [List.filter_cons_of_pos hx, List.flatMap_cons, List.filter_eq_self.mpr hall]
    | false =>
      have hnone := hdrop x List.mem_cons_self hx
      rw [List.filter_cons_of_neg (by simp [hx]), List.filter_eq_nil_iff.mpr (by simpa using hnone)]
      rfl

/-- Where resources share nothing, the parts of one are those that its removal takes away. -/
theorem remove_ofResources {rs : List Resource} {r : Resource} (hr : r ∈ rs)
    (hkeys : (rs.map Resource.key).Nodup) (hpackets : (rs.flatMap Resource.packets).Nodup) :
    (ofResources rs).remove r = ofResources (rs.filter (·.key != r.key)) := by
  have hsame : ∀ x ∈ rs, (x.key != r.key) = false → x = r := by
    intro x hx hkey
    exact List.inj_on_of_nodup_map hkeys hx hr (by simpa using hkey)
  have happart : ∀ x ∈ rs, (x.key != r.key) = true → ∀ fd ∈ x.packets, fd ∉ r.packets := by
    intro x hx hkey
    have hne : x ≠ r := by
      rintro rfl
      simp at hkey
    have hsymm : Std.Symm (Function.onFun List.Disjoint Resource.packets) := 
      ⟨fun _ _ h fd hfd hfd' => h hfd' hfd⟩
    exact fun fd hfd hfd' => (List.nodup_flatMap.mp hpackets).2.forall hx hr hne hfd hfd'
  have hflat : (rs.flatMap Resource.packets).filter (· ∉ r.packets) =
      (rs.filter (·.key != r.key)).flatMap Resource.packets := by
    apply filter_flatMap_of
    · intro x hx hkey fd hfd
      rw [hsame x hx hkey] at hfd
      simpa using hfd
    · intro x hx hkey fd hfd
      simpa using happart x hx hkey fd hfd
  ext1
  · exact List.filter_map
  · exact hflat
  · exact hflat

end Inventory

namespace Kernel

/-- The numbers that were given out from one kernel to another. -/
def given (k k' : Kernel) : List Descriptor := List.range' k.next (k'.next - k.next)

theorem mem_given {k k' : Kernel} {fd : Descriptor} :
    fd ∈ given k k' ↔ k.next ≤ fd ∧ fd < k'.next := by
  simp only [given, List.mem_range'_1]
  have hnat : ∀ a b c : Nat, (a ≤ c ∧ c < a + (b - a)) ↔ (a ≤ c ∧ c < b) := by omega
  exact hnat _ _ _

/-- Of the numbers `made`, what there is are the parts of some resources. -/
structure Stocks (made : List Descriptor) (rs : List Resource) (k : Kernel) : Prop where
  numbered : k.Numbered
  made_lt : ∀ fd ∈ made, fd < k.next
  tidy : k.inventory.Tidy (· ∈ made) k.trace
  only_eq : k.inventory.only made = .ofResources rs

namespace Stocks

variable {made : List Descriptor} {rs : List Resource} {k k' : Kernel} {r : Resource}
  {inv : Inventory}

theorem quiet (h : Stocks made rs k) (hquiet : Quiet k k') : Stocks made rs k' where
  numbered := hquiet.numbered h.numbered
  made_lt := hquiet.next_eq ▸ h.made_lt
  tidy := hquiet.tidy h.tidy
  only_eq := by rw [hquiet.inventory_eq, h.only_eq]

theorem congr {rs' : List Resource} (h : Stocks made rs k)
    (hrs : Inventory.ofResources rs' = .ofResources rs) : Stocks made rs' k :=
  ⟨h.numbered, h.made_lt, h.tidy, h.only_eq.trans hrs.symm⟩

/-- No number occurs twice among the parts of the resources. -/
theorem nodup (h : Stocks made rs k) :
    (rs.map Resource.key).Nodup ∧ (rs.flatMap Resource.packets).Nodup := by
  have hcount : ∀ l : List Descriptor, (∀ fd ∈ made, l.count fd ≤ 1) →
      (l.filter (· ∈ made)).Nodup := by
    intro l hl
    apply List.nodup_iff_count_le_one.mpr
    intro fd
    by_cases hfd : fd ∈ made
    · rw [List.count_filter (by simpa using hfd)]
      exact hl fd hfd
    · rw [List.count_eq_zero_of_not_mem fun hmem => hfd (by simpa using (List.mem_filter.mp hmem).2)]
      exact Nat.zero_le 1
  have hraws := congrArg Inventory.raws h.only_eq
  have hpackets := congrArg Inventory.packets h.only_eq
  constructor
  · have hnodup := hcount k.inventory.raws fun fd hfd =>
      (Nat.le_add_left _ _).trans (h.tidy.raw_once fd hfd)
    rw [← show _ = rs.map Resource.key from hraws]
    exact hnodup
  · have hnodup := hcount k.inventory.packets fun fd hfd =>
      (Nat.le_add_left _ _).trans (h.tidy.packet_once fd hfd)
    rw [← show _ = rs.flatMap Resource.packets from hpackets]
    exact hnodup

theorem key_mem (h : Stocks made rs k) (hr : r ∈ rs) :
    r.key ∈ k.inventory.raws ∧ r.key ∈ made := by
  have hmem : r.key ∈ (k.inventory.only made).raws := by
    rw [h.only_eq]
    exact List.mem_map_of_mem hr
  simpa [Inventory.only, Inventory.filter] using hmem

theorem packet_mem (h : Stocks made rs k) (hr : r ∈ rs) {fd : Descriptor} (hfd : fd ∈ r.packets) :
    fd ∈ k.inventory.packets ∧ fd ∈ made := by
  have hmem : fd ∈ (k.inventory.only made).packets := by
    rw [h.only_eq]
    exact List.mem_flatMap.mpr ⟨r, hr, hfd⟩
  simpa [Inventory.only, Inventory.filter] using hmem

/-- What is acquired joins the stock, and nothing else changes. -/
theorem gained (h : Stocks made rs k)
    (hgains : Gains (fun fd => fd ∈ made ∨ k.next ≤ fd) k inv k') :
    k'.inventory.only (made ++ given k k') = k.inventory.only made ++ inv ∧
      k'.inventory.without (made ++ given k k') = k.inventory.without made := by
  have hold : ∀ fd ∈ k.inventory.all, (fd ∈ made ++ given k k' ↔ fd ∈ made) := by
    intro fd hfd
    rw [List.mem_append, mem_given]
    have hlt := h.numbered.inventory_lt fd hfd
    exact or_iff_left fun hge => Nat.not_lt.mpr hge.1 hlt
  have hnew : ∀ fd ∈ inv.all, fd ∈ made ++ given k k' := by
    intro fd hfd
    refine List.mem_append_right _ (mem_given.mpr ⟨hgains.new fd hfd, ?_⟩)
    apply hgains.numbered.inventory_lt
    rw [hgains.inventory_eq]
    exact Inventory.mem_all_append.mpr (Or.inr hfd)
  unfold Inventory.only Inventory.without
  rw [hgains.inventory_eq, Inventory.filter_append, Inventory.filter_append]
  constructor
  · congr 1
    · exact Inventory.filter_congr fun fd hfd => decide_eq_decide.mpr (hold fd hfd)
    · refine (Inventory.filter_congr fun fd hfd => ?_).trans (Inventory.filter_true inv)
      exact decide_eq_true (hnew fd hfd)
  · have hnone : inv.filter (fun fd => fd ∉ made ++ given k k') = {} := by
      refine (Inventory.filter_congr fun fd hfd => ?_).trans (Inventory.filter_false inv)
      exact decide_eq_false (not_not.mpr (hnew fd hfd))
    rw [hnone, Inventory.append_empty]
    exact Inventory.filter_congr fun fd hfd => decide_eq_decide.mpr (not_congr (hold fd hfd))

theorem of_gains (h : Stocks made rs k)
    (hgains : Gains (fun fd => fd ∈ made ∨ k.next ≤ fd) k inv k') {rs' : List Resource}
    (hrs : Inventory.ofResources rs' = .ofResources rs ++ inv) :
    Stocks (made ++ given k k') rs' k' where
  numbered := hgains.numbered
  made_lt fd hfd := by
    rcases List.mem_append.mp hfd with hold | hnew
    · exact Nat.lt_of_lt_of_le (h.made_lt fd hold) hgains.next_le
    · exact (mem_given.mp hnew).2
  tidy := by
    apply hgains.tidy.mono
    intro fd hfd
    rcases List.mem_append.mp hfd with hold | hnew
    · exact Or.inl hold
    · exact Or.inr (mem_given.mp hnew).1
  only_eq := by rw [(h.gained hgains).1, h.only_eq, hrs]

end Stocks

/-- What others do to a kernel: they make, use and close sockets of their own. -/
structure Elsewhere (made : List Descriptor) (k k' : Kernel) : Prop where
  next_le : k.next ≤ k'.next
  only_eq : k'.inventory.only made = k.inventory.only made
  trace_eq : ∃ calls, k'.trace = k.trace ++ calls ∧
    ∀ call ∈ calls, ∀ fd ∈ made, call.ends ≠ some fd
  numbered : k.Numbered → k'.Numbered

theorem Elsewhere.count_eq {made : List Descriptor} {k k' : Kernel} (h : Elsewhere made k k')
    (part : Inventory → List Descriptor)
    (hpart : ∀ i, part (i.only made) = (part i).filter (· ∈ made)) {fd : Descriptor}
    (hfd : fd ∈ made) : (part k'.inventory).count fd = (part k.inventory).count fd := by
  have heq := congrArg (fun i => (part i).count fd) h.only_eq
  simp only [hpart] at heq
  rwa [List.count_filter (by simpa using hfd), List.count_filter (by simpa using hfd)] at heq

theorem Elsewhere.tidy {made : List Descriptor} {k k' : Kernel} (h : Elsewhere made k k')
    (hk : k.inventory.Tidy (· ∈ made) k.trace) : k'.inventory.Tidy (· ∈ made) k'.trace := by
  obtain ⟨calls, htrace, hends⟩ := h.trace_eq
  have hnone : ∀ fd ∈ made, ∀ call : Call, call.ends = some fd → calls.count call = 0 := by
    intro fd hfd call hcall
    exact List.count_eq_zero_of_not_mem fun hmem => hends call hmem fd hfd hcall
  have hraws := fun fd (hfd : fd ∈ made) => h.count_eq Inventory.raws (fun _ => rfl) hfd
  have hpackets := fun fd (hfd : fd ∈ made) => h.count_eq Inventory.packets (fun _ => rfl) hfd
  have hmappings := fun fd (hfd : fd ∈ made) => h.count_eq Inventory.mappings (fun _ => rfl) hfd
  rw [htrace]
  constructor
  · intro fd hfd
    rw [List.count_append, hnone fd hfd _ rfl, hraws fd hfd]
    exact hk.raw_once fd hfd
  · intro fd hfd
    rw [List.count_append, hnone fd hfd _ rfl, hpackets fd hfd]
    exact hk.packet_once fd hfd
  · intro fd hfd
    rw [hmappings fd hfd]
    exact hk.mapping_once fd hfd
  · intro fd hfd
    rw [← List.count_pos_iff, ← List.count_pos_iff, hmappings fd hfd, hpackets fd hfd]
    simpa using hk.mapped fd hfd
  · intro fd hfd
    refine List.pairwise_append.mpr ⟨hk.unmapped_first fd hfd, ?_, ?_⟩
    · apply List.pairwise_of_forall_mem_list
      rintro _ _ later hlater - rfl
      exact hends _ hlater fd hfd rfl
    · rintro _ _ later hlater - rfl
      exact hends _ hlater fd hfd rfl

theorem Stocks.elsewhere {made : List Descriptor} {rs : List Resource} {k k' : Kernel}
    (hk : Stocks made rs k) (h : Elsewhere made k k') : Stocks made rs k' where
  numbered := h.numbered hk.numbered
  made_lt fd hfd := Nat.lt_of_lt_of_le (hk.made_lt fd hfd) h.next_le
  tidy := h.tidy hk.tidy
  only_eq := h.only_eq.trans hk.only_eq

/-! ## Releasing -/

theorem inventory_release (r : Resource) (k : Kernel) :
    (r.release.run k).2.inventory = k.inventory.remove r := by
  obtain ⟨socket, ring⟩ := r
  cases ring with
  | none =>
    refine (inventory_closeRaw socket.descriptor k).trans ?_
    ext1 <;> simp [Inventory.remove, Resource.packets, Resource.key]
  | some ring =>
    obtain ⟨packet, geometry⟩ := ring
    have hclose := inventory_closeRaw socket.descriptor
      ((closePacket packet).run ((unmap packet).run k).2).2
    refine Eq.trans hclose ?_
    rw [inventory_closePacket, inventory_unmap]
    ext1 <;> simp [Inventory.remove, Resource.packets, Resource.key, bne, Bool.beq_eq_decide_eq]

/-- What a release records. -/
theorem trace_release (r : Resource) (k : Kernel) :
    (r.release.run k).2.trace = k.trace ++
      (r.packets.flatMap (fun fd => [.unmap fd, .closePacket fd]) ++ [.closeCan r.key]) := by
  obtain ⟨socket, ring⟩ := r
  cases ring with
  | none => rfl
  | some ring =>
    show k.trace ++ [_] ++ [_] ++ [_] = _
    simp [Resource.packets, Resource.key]

theorem next_release (r : Resource) (k : Kernel) : (r.release.run k).2.next = k.next := by
  obtain ⟨socket, ring⟩ := r
  cases ring with
  | none => rfl
  | some ring => rfl

namespace Stocks

variable {made : List Descriptor} {rs : List Resource} {k : Kernel} {r : Resource}

theorem tidy_release (h : Stocks made rs k) (hr : r ∈ rs) :
    (r.release.run k).2.inventory.Tidy (· ∈ made) (r.release.run k).2.trace := by
  have hraw := (h.key_mem hr).1
  have hpackets : ∀ fd ∈ r.packets, fd ∈ k.inventory.packets ∧ fd ∈ made :=
    fun fd hfd => h.packet_mem hr hfd
  obtain ⟨socket, ring⟩ := r
  cases ring with
  | none => exact tidy_closeRaw h.tidy hraw
  | some ring =>
    obtain ⟨packet, geometry⟩ := ring
    obtain ⟨hpacket, hown⟩ := hpackets packet (List.mem_singleton.mpr rfl)
    have hunmapped := tidy_unmap h.tidy hown hpacket
    have hclosed := tidy_closePacket hunmapped hpacket (by simp [inventory_unmap])
    exact tidy_closeRaw hclosed hraw

theorem numbered_release (h : Stocks made rs k) (hr : r ∈ rs) :
    (r.release.run k).2.Numbered := by
  constructor
  · rw [inventory_release, next_release]
    intro fd hfd
    apply h.numbered.inventory_lt
    simp only [Inventory.mem_all, Inventory.remove, List.mem_filter] at hfd ⊢
    tauto
  · rw [trace_release, next_release]
    intro call hcall fd hfd
    rcases List.mem_append.mp hcall with hold | hnew
    · exact h.numbered.trace_lt call hold fd hfd
    · apply h.made_lt
      simp only [List.mem_append, List.mem_flatMap, List.mem_cons, List.not_mem_nil, or_false] at hnew
      rcases hnew with ⟨packet, hpacket, rfl | rfl⟩ | rfl
      · cases hfd
        exact (h.packet_mem hr hpacket).2
      · cases hfd
        exact (h.packet_mem hr hpacket).2
      · cases hfd
        exact (h.key_mem hr).2

/-- What is released is exactly one of the resources. -/
theorem release (h : Stocks made rs k) (hr : r ∈ rs) :
    Stocks made (rs.filter (·.key != r.key)) (r.release.run k).2 ∧
      (r.release.run k).2.inventory.without made = k.inventory.without made := by
  obtain ⟨hkeys, hflat⟩ := h.nodup
  refine ⟨⟨h.numbered_release hr, ?_, h.tidy_release hr, ?_⟩, ?_⟩
  · rw [next_release]
    exact h.made_lt
  · rw [inventory_release, Inventory.only, Inventory.filter_remove, ← Inventory.only, h.only_eq,
      Inventory.remove_ofResources hr hkeys hflat]
  · rw [inventory_release, Inventory.without, Inventory.filter_remove, ← Inventory.without]
    have hkept : ∀ {l : List Descriptor} {p : Descriptor → Bool}, (∀ fd ∈ l, p fd = true) →
        l.filter p = l := fun hall => List.filter_eq_self.mpr hall
    ext1
    · apply hkept
      intro fd hfd
      rw [bne_iff_ne]
      rintro rfl
      exact absurd (h.key_mem hr).2 (by simpa using (List.mem_filter.mp hfd).2)
    · apply hkept
      intro fd hfd
      refine decide_eq_true fun hmem => ?_
      exact absurd (h.packet_mem hr hmem).2 (by simpa using (List.mem_filter.mp hfd).2)
    · apply hkept
      intro fd hfd
      refine decide_eq_true fun hmem => ?_
      exact absurd (h.packet_mem hr hmem).2 (by simpa using (List.mem_filter.mp hfd).2)

/-- Several resources of different numbers are released one after the other. -/
theorem releaseAll {s : Site} {us : List Resource} (h : Stocks made rs s.medium.kernel)
    (hus : ∀ u ∈ us, u ∈ rs) (hkeys : (us.map Resource.key).Nodup) :
    Stocks made (rs.filter (·.key ∉ us.map Resource.key)) (s.releaseAll us).medium.kernel ∧
      (s.releaseAll us).medium.kernel.inventory.without made =
        s.medium.kernel.inventory.without made ∧
      (s.releaseAll us).medium.kernel.next = s.medium.kernel.next := by
  induction us generalizing rs s with
  | nil =>
    refine ⟨?_, rfl, rfl⟩
    have hall : rs.filter (fun r => r.key ∉ ([] : List Resource).map Resource.key) = rs :=
      List.filter_eq_self.mpr fun r _ => by simp
    rw [hall]
    exact h
  | cons u us ih =>
    rw [List.map_cons, List.nodup_cons] at hkeys
    obtain ⟨hfirst, hsame⟩ := h.release (hus u List.mem_cons_self)
    have hrest : ∀ x ∈ us, x ∈ rs.filter (·.key != u.key) := by
      intro x hx
      refine List.mem_filter.mpr ⟨hus x (List.mem_cons_of_mem _ hx), bne_iff_ne.mpr fun heq => ?_⟩
      exact hkeys.1 (heq ▸ List.mem_map_of_mem hx)
    obtain ⟨hstocks, hwithout, hnext⟩ := ih (s := (s.onKernel u.release).2) hfirst hrest hkeys.2
    refine ⟨?_, hwithout.trans hsame, hnext.trans (next_release u s.medium.kernel)⟩
    have hfilter : (rs.filter (·.key != u.key)).filter (·.key ∉ us.map Resource.key) =
        rs.filter (·.key ∉ (u :: us).map Resource.key) := by
      rw [List.filter_filter]
      congr 1
      funext r
      simp [bne, Bool.beq_eq_decide_eq, Bool.and_comm]
    rw [← hfilter]
    exact hstocks

/-- What nothing on the bus refers to is released, and nothing else. -/
theorem collect {s : Site} (h : Stocks made s.bus.resources s.medium.kernel) :
    Stocks made s.collect.bus.resources s.collect.medium.kernel ∧
      s.collect.medium.kernel.inventory.without made = s.medium.kernel.inventory.without made ∧
      s.collect.medium.kernel.next = s.medium.kernel.next := by
  have hresources : s.collect.bus.resources =
      s.bus.resources.filter fun r => s.bus.holds r.key := by rw [Site.collect_bus]
  have hkeys := h.nodup.1
  rw [hresources]
  unfold Site.collect
  simp only [List.partition_eq_filter_filter]
  split
  · rename_i hnone
    rw [List.isEmpty_iff, List.filter_eq_nil_iff] at hnone
    have hall : s.bus.resources.filter (fun r => s.bus.holds r.key) = s.bus.resources :=
      List.filter_eq_self.mpr fun r hr => by simpa using hnone r hr
    rw [hall]
    exact ⟨h, rfl, rfl⟩
  · have hsub := (List.filter_sublist (p := not ∘ fun r => s.bus.holds r.key)
      (l := s.bus.resources)).map Resource.key
    have hreleased := releaseAll (s := s.setBus { s.bus with
        resources := s.bus.resources.filter fun r => s.bus.holds r.key }) h
      (fun u hu => (List.mem_filter.mp hu).1) (hkeys.sublist hsub)
    have hfilter : s.bus.resources.filter (fun r => s.bus.holds r.key) =
        s.bus.resources.filter
          (·.key ∉ (s.bus.resources.filter (not ∘ fun r => s.bus.holds r.key)).map Resource.key) := by
      apply List.filter_congr
      intro r hr
      cases hholds : s.bus.holds r.key with
      | true =>
        symm
        rw [decide_eq_true_eq]
        intro hmem
        obtain ⟨x, hx, heq⟩ := List.mem_map.mp hmem
        have hunheld := (List.mem_filter.mp hx).2
        simp [heq, hholds] at hunheld
      | false =>
        symm
        rw [decide_eq_false_iff_not, not_not]
        exact List.mem_map_of_mem (List.mem_filter.mpr ⟨hr, by simp [hholds]⟩)
    obtain ⟨hstocks, hrest⟩ := hreleased
    rw [← hfilter] at hstocks
    exact ⟨hstocks, hrest⟩

end Stocks

end Kernel

end CanTransport
