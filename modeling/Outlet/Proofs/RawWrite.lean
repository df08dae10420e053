import Outlet.Proofs.WriteLoop
import Outlet.Stdout.Descriptor

/-!
# Writes to a descriptor, by target

A file and the null device take bytes as long as there is room. What they take of a text is its
front, and once they have left something of a text they take nothing more. All other targets fail:
two of them on every write, and two on every write of some bytes.
-/

namespace Outlet.Descriptor

/-- The target takes bytes while there is room for them. -/
def Accepting (descriptor : Descriptor) : Prop :=
  descriptor.target = .file ∨ descriptor.target = .null

/-- The system knows no descriptor to write to. -/
def Bad (descriptor : Descriptor) : Prop :=
  descriptor.target = .closed ∨ descriptor.target = .readonly

theorem Bad.not_accepting {descriptor : Descriptor} (hb : descriptor.Bad) :
    ¬ descriptor.Accepting := by
  intro ha
  rcases ha with h | h <;> rcases hb with h' | h' <;> cases h.symm.trans h'

/-- The target fails with an error whenever it is to take some bytes. -/
def Refusing (descriptor : Descriptor) (error : IoError) : Prop :=
  descriptor.target = .full ∧ error = .noSpace ∨
    descriptor.target = .brokenPipe ∧ error = .brokenPipe

/-! ## Storing -/

@[simp] theorem target_store (descriptor : Descriptor) (bytes : Bytes) :
    (descriptor.store bytes).target = descriptor.target := by
  unfold store
  split <;> rfl

@[simp] theorem limit_store (descriptor : Descriptor) (bytes : Bytes) :
    (descriptor.store bytes).limit = descriptor.limit := by
  unfold store
  split <;> rfl

theorem Accepting.store {descriptor : Descriptor} (ha : descriptor.Accepting) (bytes : Bytes) :
    (descriptor.store bytes).Accepting := by
  rw [Accepting, target_store]
  exact ha

theorem store_of_file {descriptor : Descriptor} (ht : descriptor.target = .file) (bytes : Bytes) :
    descriptor.store bytes = { descriptor with file := descriptor.file ++ bytes } := by
  rw [store, ht]

theorem store_of_ne_file {descriptor : Descriptor} (ht : descriptor.target ≠ .file)
    (bytes : Bytes) : descriptor.store bytes = descriptor := by
  unfold store
  split
  next h => exact absurd h ht
  next => rfl

@[simp] theorem store_nil (descriptor : Descriptor) : descriptor.store [] = descriptor := by
  by_cases ht : descriptor.target = .file
  · rw [store_of_file ht, List.append_nil]
  · exact store_of_ne_file ht []

theorem store_store (descriptor : Descriptor) (first second : Bytes) :
    (descriptor.store first).store second = descriptor.store (first ++ second) := by
  by_cases ht : descriptor.target = .file
  · rw [store_of_file ((target_store _ _).trans ht), store_of_file ht, store_of_file ht,
      List.append_assoc]
  · rw [store_of_ne_file ht, store_of_ne_file ht, store_of_ne_file ht]

/-! ## What fits -/

/-- The bytes of a text that there is no room for. -/
def excess (descriptor : Descriptor) (text : Bytes) : Bytes :=
  text.drop (descriptor.fitting text).length

/-- There is room for every text. -/
def Unlimited (descriptor : Descriptor) : Prop :=
  descriptor.target ≠ .file ∨ descriptor.limit = none

theorem Unlimited.store {descriptor : Descriptor} (hu : descriptor.Unlimited) (bytes : Bytes) :
    (descriptor.store bytes).Unlimited := by
  rw [Unlimited, target_store, limit_store]
  exact hu

theorem Unlimited.fitting {descriptor : Descriptor} (hu : descriptor.Unlimited) (text : Bytes) :
    descriptor.fitting text = text := by
  have hr : descriptor.room? = none := by
    rw [room?]
    split
    next ht => rw [hu.resolve_left (not_not_intro ht), Option.map_none]
    next => rfl
  rw [Descriptor.fitting, hr]

theorem fitting_of_limit {descriptor : Descriptor} {limit : Nat}
    (ht : descriptor.target = .file) (hl : descriptor.limit = some limit) (text : Bytes) :
    descriptor.fitting text = text.take (limit - descriptor.file.length) := by
  rw [fitting, room?, ht, hl]
  rfl

theorem limited_or_unlimited (descriptor : Descriptor) :
    (∃ limit, descriptor.target = .file ∧ descriptor.limit = some limit) ∨
      descriptor.Unlimited := by
  by_cases ht : descriptor.target = .file
  · cases hl : descriptor.limit with
    | none => exact .inr (.inr hl)
    | some limit => exact .inl ⟨limit, ht, rfl⟩
  · exact .inr (.inl ht)

theorem fitting_begins (descriptor : Descriptor) (text : Bytes) :
    descriptor.fitting text <+: text := by
  rcases descriptor.limited_or_unlimited with ⟨limit, ht, hl⟩ | hu
  · rw [fitting_of_limit ht hl]
    exact List.take_prefix _ _
  · exact ⟨[], (List.append_nil _).trans (hu.fitting text)⟩

@[simp] theorem fitting_nil (descriptor : Descriptor) : descriptor.fitting [] = [] :=
  List.prefix_nil.mp (descriptor.fitting_begins [])

theorem fitting_eq_nil_iff (descriptor : Descriptor) {text : Bytes} (h : text ≠ []) :
    descriptor.fitting text = [] ↔ descriptor.room? = some 0 := by
  unfold fitting
  cases descriptor.room? with
  | none => simp [h]
  | some room => simp [h]

theorem fitting_append_excess (descriptor : Descriptor) (text : Bytes) :
    descriptor.fitting text ++ descriptor.excess text = text :=
  List.prefix_iff_eq_append.mp (descriptor.fitting_begins text)

@[simp] theorem excess_nil (descriptor : Descriptor) : descriptor.excess [] = [] := by
  simp [excess]

theorem excess_eq_nil_iff (descriptor : Descriptor) (text : Bytes) :
    descriptor.excess text = [] ↔ descriptor.fitting text = text := by
  constructor
  · intro h
    have happ := descriptor.fitting_append_excess text
    rwa [h, List.append_nil] at happ
  · intro h
    rw [excess, h, List.drop_length]

theorem Unlimited.excess {descriptor : Descriptor} (hu : descriptor.Unlimited) (text : Bytes) :
    descriptor.excess text = [] :=
  (excess_eq_nil_iff _ _).mpr (hu.fitting text)

theorem excess_ne_nil_of_fitting {descriptor : Descriptor} {text : Bytes} (ht : text ≠ [])
    (hf : descriptor.fitting text = []) : descriptor.excess text ≠ [] := by
  rw [ne_eq, excess_eq_nil_iff, hf]
  exact ht.symm

/-- What fits of two texts is what fits of the first, and of the second behind it. -/
theorem fitting_append (descriptor : Descriptor) (first second : Bytes) :
    descriptor.fitting (first ++ second) =
      descriptor.fitting first ++
        (descriptor.store (descriptor.fitting first)).fitting second := by
  rcases descriptor.limited_or_unlimited with ⟨limit, ht, hl⟩ | hu
  · have ht' := (target_store descriptor (descriptor.fitting first)).trans ht
    have hl' := (limit_store descriptor (descriptor.fitting first)).trans hl
    rw [fitting_of_limit ht' hl', store_of_file ht, fitting_of_limit ht hl,
      fitting_of_limit ht hl, List.take_append, List.length_append, List.length_take]
    congr 2
    omega
  · rw [hu.fitting, hu.fitting, (hu.store first).fitting]

/-- A target that has left something of a text takes nothing more. -/
theorem fitting_store_of_excess {descriptor : Descriptor} {text : Bytes}
    (h : descriptor.excess text ≠ []) (more : Bytes) :
    (descriptor.store (descriptor.fitting text)).fitting more = [] := by
  rcases descriptor.limited_or_unlimited with ⟨limit, ht, hl⟩ | hu
  · have ht' := (target_store descriptor (descriptor.fitting text)).trans ht
    have hl' := (limit_store descriptor (descriptor.fitting text)).trans hl
    have hlong : limit - descriptor.file.length < text.length := by
      rw [excess, fitting_of_limit ht hl, List.length_take, ne_eq, List.drop_eq_nil_iff] at h
      omega
    rw [fitting_of_limit ht' hl', store_of_file ht, fitting_of_limit ht hl, List.length_append,
      List.length_take, List.take_eq_nil_iff]
    left
    omega
  · exact absurd ((excess_eq_nil_iff descriptor text).mpr (hu.fitting text)) h

/-- What is left of a text does not fit either. -/
theorem fitting_excess (descriptor : Descriptor) (text : Bytes) :
    (descriptor.store (descriptor.fitting text)).fitting (descriptor.excess text) = [] := by
  by_cases h : descriptor.excess text = []
  · rw [h, fitting_nil]
  · exact fitting_store_of_excess h _

theorem excess_append (descriptor : Descriptor) (first second : Bytes) :
    descriptor.excess (first ++ second) =
      descriptor.excess first ++
        (descriptor.store (descriptor.fitting first)).excess second := by
  have hall := descriptor.fitting_append_excess (first ++ second)
  have hfirst := descriptor.fitting_append_excess first
  have hsecond :=
    (descriptor.store (descriptor.fitting first)).fitting_append_excess second
  rw [fitting_append, List.append_assoc] at hall
  by_cases he : descriptor.excess first = []
  · rw [he, List.append_nil] at hfirst
    rw [he, List.nil_append]
    rw [hfirst] at hall hsecond ⊢
    have hrest := List.append_cancel_left hall
    exact List.append_cancel_left (hrest.trans hsecond.symm)
  · rw [fitting_store_of_excess he, List.nil_append] at hall hsecond
    have hrest : descriptor.fitting first ++ descriptor.excess (first ++ second) =
        descriptor.fitting first ++ (descriptor.excess first ++ second) := by
      rw [hall, ← List.append_assoc, hfirst]
    rw [hsecond]
    exact List.append_cancel_left hrest

/-! ## Raw writes -/

@[simp] theorem target_write (descriptor : Descriptor) (parts : Parts) :
    (descriptor.write parts).2.target = descriptor.target := by
  unfold Descriptor.write
  split
  · rfl
  · exact target_store _ _

theorem Bad.of_write {descriptor : Descriptor} {parts : Parts}
    (h : (descriptor.write parts).1 = .failed .badDescriptor) : descriptor.Bad := by
  unfold Descriptor.write at h
  split at h
  next error hf =>
    obtain rfl := WriteAnswer.failed.inj h
    have hother : ∀ error ∈ [IoError.invalidArgument, .noSpace, .brokenPipe, .fileTooLarge],
        error ≠ .badDescriptor := by decide
    grind [fault?, Bad]
  next => cases h

/-- A write stores what it takes, and nothing else. -/
theorem snd_write (descriptor : Descriptor) (parts : Parts) :
    (descriptor.write parts).2 =
      descriptor.store (WriteCall.taken ⟨parts, (descriptor.write parts).1⟩) := by
  unfold Descriptor.write
  cases descriptor.fault? parts with
  | some error => exact (store_nil descriptor).symm
  | none =>
    have hfit := List.prefix_iff_eq_take.mp (descriptor.fitting_begins parts.flatten)
    simp only [WriteCall.taken_accepted]
    rw [← hfit]

/-- A target that does not take bytes takes none of an offer, not even where a write of nothing
succeeds. -/
theorem taken_write_of_not_accepting {descriptor : Descriptor} (h : ¬ descriptor.Accepting)
    (parts : Parts) : WriteCall.taken ⟨parts, (descriptor.write parts).1⟩ = [] := by
  by_cases hp : parts.flatten = []
  · rw [WriteCall.taken, hp, List.take_nil]
  · have hp' : parts.size ≠ 0 := fun hz => hp (List.length_eq_zero_iff.mp hz)
    have hfault : ∃ error, descriptor.fault? parts = some error := by
      rw [fault?]
      cases ht : descriptor.target with
      | file => exact absurd (.inl ht) h
      | null => exact absurd (.inr ht) h
      | closed | readonly => exact ⟨_, rfl⟩
      | full | brokenPipe =>
        simp only [hp', if_false]
        split <;> exact ⟨_, rfl⟩
    obtain ⟨error, hfault⟩ := hfault
    rw [Descriptor.write, hfault, WriteCall.taken_failed]

theorem Bad.write {descriptor : Descriptor} (hb : descriptor.Bad) (parts : Parts) :
    descriptor.write parts = (.failed .badDescriptor, descriptor) := by
  rcases hb with ht | ht <;> simp [Descriptor.write, fault?, ht]

theorem Refusing.write {descriptor : Descriptor} {error : IoError}
    (hr : descriptor.Refusing error) {parts : Parts} (hp : 0 < parts.size)
    (hl : parts.length ≤ maxParts) : descriptor.write parts = (.failed error, descriptor) := by
  have hl' : ¬ maxParts < parts.length := by omega
  have hp' : parts.size ≠ 0 := by omega
  rcases hr with ⟨ht, rfl⟩ | ⟨ht, rfl⟩ <;> simp [Descriptor.write, fault?, ht, hl', hp']

/-- A target that takes bytes takes what fits of a text, if that is any of it. -/
theorem Accepting.write {descriptor : Descriptor} (ha : descriptor.Accepting) {parts : Parts}
    (hp : 0 < parts.size) (hl : parts.length ≤ maxParts) :
    descriptor.write parts =
      if descriptor.fitting parts.flatten = [] then (.failed .fileTooLarge, descriptor)
      else (.accepted (descriptor.fitting parts.flatten).length,
        descriptor.store (descriptor.fitting parts.flatten)) := by
  have hl' : ¬ maxParts < parts.length := by omega
  have hp' : parts.size ≠ 0 := by omega
  have hroom := descriptor.fitting_eq_nil_iff (List.length_pos_iff.mp hp)
  have hfault : descriptor.fault? parts =
      if descriptor.fitting parts.flatten = [] then some .fileTooLarge else none := by
    rcases ha with ht | ht <;> simp [fault?, ht, hl', hp', hroom]
  rw [Descriptor.write, hfault]
  split <;> simp_all

theorem Accepting.write_all {descriptor : Descriptor} (ha : descriptor.Accepting) {parts : Parts}
    (hl : parts.length ≤ maxParts) (he : descriptor.excess parts.flatten = []) :
    descriptor.write parts = (.accepted parts.size, descriptor.store parts.flatten) := by
  have hfit := (excess_eq_nil_iff _ _).mp he
  by_cases hp : 0 < parts.size
  · have hne : parts.flatten ≠ [] := List.length_pos_iff.mp hp
    rw [ha.write hp hl, hfit, if_neg hne, Parts.size]
  · have hl' : ¬ maxParts < parts.length := by omega
    have hz : parts.size = 0 := by omega
    have hfault : descriptor.fault? parts = none := by
      rcases ha with ht | ht <;> simp [fault?, ht, hl', hz]
    rw [Descriptor.write, hfault]
    simp only [hfit, Parts.size]

end Outlet.Descriptor
