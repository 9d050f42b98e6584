import CoopKernel.Proofs.MixedConversations

/-!
# Size and page size of a chip over its history

A chip may be identified any number of times, and another chip may have taken
its place in between. Whether it is valid is what the latest id bytes say. Its
size and page size are those of the latest id bytes that were recognised: they
outlast an identification that finds no chip of the family.
-/

namespace CoopKernel.Board

open Flash (Progress)

variable {b b₁ b₂ : Board} {i : Nat} {op : Flash.Operation} {p : Progress} {c c' : Chip}
variable {ids : List (UInt8 × UInt8)} {id : UInt8 × UInt8}

def recognised (id : UInt8 × UInt8) : Bool := Flash.recognises id.1 id.2

/-- The id bytes seen so far, the latest first, say this of a chip. -/
structure Described (ids : List (UInt8 × UInt8)) (c : Chip) : Prop where
  valid : c.valid = ids.head?.any recognised
  unknown : ids.find? recognised = none → c.size = 0 ∧ c.pageSize = 0
  known : ∀ id, ids.find? recognised = some id →
    c.size.toNat = 32 * 1024 * 2 ^ (Flash.density id.2).toNat ∧
      Flash.pageSizes[(Flash.density id.2).toNat]? = some c.pageSize

structure SameGeometry (c c' : Chip) : Prop where
  valid : c'.valid = c.valid
  size : c'.size = c.size
  pageSize : c'.pageSize = c.pageSize

theorem Described.same (h : Described ids c) (same : SameGeometry c c') : Described ids c' := by
  constructor
  · rw [same.valid]
    exact h.valid
  · rw [same.size, same.pageSize]
    exact h.unknown
  · rw [same.size, same.pageSize]
    exact h.known

/-- Recognised id bytes replace size and page size, others leave them as they were. -/
theorem Described.identified (h : Described ids c) (id : UInt8 × UInt8) :
    Described (id :: ids) (c.identified id.1 id.2) := by
  constructor
  · exact Chip.identified_valid c
  · intro none_known
    obtain ⟨unknown, none_before⟩ : recognised id = false ∧ ids.find? recognised = none := by
      simpa using none_known
    rw [Chip.identified, if_neg (by simpa [recognised] using unknown)]
    exact h.unknown none_before
  · intro latest found
    cases known : recognised id with
    | true =>
      rw [List.find?_cons_of_pos known] at found
      cases found
      exact Chip.identified_geometry c known
    | false =>
      rw [List.find?_cons_of_neg (by simpa using known)] at found
      rw [Chip.identified, if_neg (by simpa [recognised] using known)]
      exact h.known latest found

/-- Only the last call of an identification takes over what the chip says. -/
theorem CallOutcome.sameGeometry (outcome : CallOutcome i b op p b₁)
    (unended : ¬(op = .identify ∧ p = .done)) : SameGeometry (b.chip i) (b₁.chip i) := by
  cases outcome with
  | identified => exact absurd ⟨rfl, rfl⟩ unended
  | ready _ _ shown =>
    rw [shown.chip]
    constructor <;> rfl
  | opens _ exchange | fetchesStatus _ exchange | readsAgain _ _ exchange | asksId _ _ exchange
  | fetchesId _ exchange | asksAnew _ _ exchange | abandons _ _ _ exchange =>
    obtain ⟨ws, begun⟩ := exchange.begun
    rw [begun.chip]
    constructor <;> rfl

theorem History.identified (history : History i b ids b₁)
    (ready : (b₁.masters.get (b₁.chip i).device.bus).status = .ok)
    (ended : identifyChip i b₁ = .ok .done b₂)
    (bytes : b₁.kernel.idBytes (b₁.chip i).device = id) : History i b (id :: ids) b₂ := by
  have called : Board.call i .identify b₁ = .ok .done b₂ := ended
  have next := history.call ready called
  rw [if_pos ⟨rfl, rfl⟩, bytes] at next
  exact next

/-- By induction on the history. -/
theorem History.described (idle : (b.chip i).step = .idle) (fresh : Described [] (b.chip i))
    (history : History i b ids b₁) : Described ids (b₁.chip i) := by
  induction history with
  | start => exact fresh
  | @call ids b₁ b₂ op p before ready called ih =>
    by_cases ended : op = .identify ∧ p = .done
    · obtain ⟨rfl, rfl⟩ := ended
      have now := InPlace.of_history idle before
      rw [now.at_device] at ready
      obtain ⟨manufacturer, device, part, extra, talk, chip, -⟩ := now.identify_done ready called
      -- What the history lists is what the chip was told.
      have bytes : b₁.kernel.idBytes (b₁.chip i).device = (manufacturer, device) := by
        rw [now.at_device, Kernel.idBytes, talk.received]
        rfl
      rw [if_pos ⟨rfl, rfl⟩, bytes, chip]
      have idled : SameGeometry (b₁.chip i) { b₁.chip i with step := .idle } := ⟨rfl, rfl, rfl⟩
      exact (ih.same idled).identified (manufacturer, device)
    · rw [if_neg ended]
      exact ih.same ((CallOutcome.of_call called).sameGeometry ended)
  | turn _ turn ih =>
    obtain ⟨ws, shown⟩ := turn.shown
    rw [shown.chip]
    exact ih
  | between _ _ chip _ _ ih =>
    rw [chip]
    exact ih

/-- From a fresh chip on, with waits and identifications mixed in any way: a chip is valid if the
latest id bytes are of the family. The size and the page size are those of the latest id bytes that
were, also where later ones were not; before any were, they are zero. -/
theorem geometry_of_latest_recognised_id (idle : (b.chip i).step = .idle)
    (fresh : (b.chip i).valid = false ∧ (b.chip i).size = 0 ∧ (b.chip i).pageSize = 0)
    (history : History i b ids b₁) :
    (b₁.chip i).valid = ids.head?.any recognised ∧
    (ids.find? recognised = none → (b₁.chip i).size = 0 ∧ (b₁.chip i).pageSize = 0) ∧
    ∀ manufacturer device, ids.find? recognised = some (manufacturer, device) →
      (b₁.chip i).size.toNat = 32 * 1024 * 2 ^ (Flash.density device).toNat ∧
        Flash.pageSizes[(Flash.density device).toNat]? = some (b₁.chip i).pageSize := by
  have begun : Described [] (b.chip i) := by
    obtain ⟨invalid, sizes⟩ := fresh
    exact ⟨invalid, fun _ => sizes, fun _ found => by cases found⟩
  obtain ⟨valid, unknown, known⟩ := history.described idle begun
  exact ⟨valid, unknown, fun manufacturer device => known (manufacturer, device)⟩

/-- A chip of eight megabytes, and then one of another family in its place. -/
def replaced : Board :=
  let replies : List UInt8 :=
    [0xff, 0x80, 0xff, 0x1f, 0x28, 0x00, 0x00, 0xff, 0x80, 0xff, 0xc2, 0x20, 0x16, 0x00]
  let bus : BusPlan := { hardware := .scripted (fun _ => true) replies }
  ({ buses := [bus], chips := [⟨0, .mode0, 1000000⟩] } : Plan).bootBoard

/-- Each of the two is identified. -/
theorem replaced_history : ∃ b₁, History 0 replaced [(0xc2, 0x20), (0x1f, 0x28)] b₁ ∧
    (b₁.chip 0).isIdle = true ∧ (b₁.chip 0).valid = false ∧ (b₁.chip 0).size = 0x800000 := by
  let calls : List Flash.Operation := [.identify, .identify, .identify, .identify]
  have seen : (pendingRuns 0 calls replaced).bind (fun b₁ => (ended? (identifyChip 0) b₁).bind
      fun b₂ => (pendingRuns 0 calls b₂).bind fun b₃ => (ended? (identifyChip 0) b₃).map
        fun b₄ => (((b₁.masters.get (b₁.chip 0).device.bus).status,
            b₁.kernel.idBytes (b₁.chip 0).device),
          ((b₃.masters.get (b₃.chip 0).device.bus).status, b₃.kernel.idBytes (b₃.chip 0).device),
          (b₄.chip 0).isIdle, (b₄.chip 0).valid, (b₄.chip 0).size)) =
      some ((.ok, 0x1f, 0x28), (.ok, 0xc2, 0x20), true, false, 0x800000) := by
    decide +kernel
  obtain ⟨b₁, ran, seen⟩ := Option.bind_eq_some_iff.mp seen
  obtain ⟨b₂, identified, seen⟩ := Option.bind_eq_some_iff.mp seen
  obtain ⟨b₃, ran', seen⟩ := Option.bind_eq_some_iff.mp seen
  obtain ⟨b₄, identified', seen⟩ := Option.map_eq_some_iff.mp seen
  simp only [Prod.mk.injEq] at seen
  obtain ⟨⟨ready, bytes⟩, ⟨ready', bytes'⟩, idle, valid, size⟩ := seen
  have found := (History.start.pendingRuns ran).identified ready (of_ended identified) bytes
  exact ⟨b₄, (found.pendingRuns ran').identified ready' (of_ended identified') bytes', idle, valid,
    size⟩

/-- The second chip is not valid, and the size of the first one is still shown. -/
theorem unknown_chip_shows_another_size : ¬ ∀ ids b₁, History 0 replaced ids b₁ →
    (b₁.chip 0).isIdle = true → (b₁.chip 0).valid = false →
      (b₁.chip 0).size = 0 ∧ (b₁.chip 0).pageSize = 0 := by
  intro follows
  obtain ⟨b₁, history, idle, valid, size⟩ := replaced_history
  obtain ⟨zero, -⟩ := follows _ b₁ history idle valid
  rw [size] at zero
  cases zero

/-- After the second identification: no valid chip, and the geometry of the first one. -/
theorem replaced_chip_keeps_its_geometry : ∃ b₁,
    History 0 replaced [(0xc2, 0x20), (0x1f, 0x28)] b₁ ∧ (b₁.chip 0).valid = false ∧
      (b₁.chip 0).size.toNat = 8 * 1024 * 1024 ∧ (b₁.chip 0).pageSize = 1024 := by
  obtain ⟨b₁, history, -⟩ := replaced_history
  obtain ⟨valid, -, known⟩ := geometry_of_latest_recognised_id (by decide +kernel)
    (by decide +kernel) history
  obtain ⟨size, pageSize⟩ := known 0x1f 0x28 (by decide)
  refine ⟨b₁, history, valid.trans (by decide), size.trans (by decide), ?_⟩
  exact Option.some.inj (pageSize.symm.trans (by decide))

end CoopKernel.Board
