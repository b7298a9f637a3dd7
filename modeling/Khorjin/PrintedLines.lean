import Khorjin.SentSession

set_option autoImplicit false

/-!
# What the two printing calls print

Each call runs through the PMUs and the channels of each, in loops that append. The
text as a whole is given here by the records.
-/
namespace Khorjin
open ByteMemory LoopRules RunRules
variable {F : Type}

namespace Configuration

def dataLines (i : ℕ) (c : Configuration F) : List (DataLine F) :=
  [.status (i + 1) c.dataError c.pmuIsNOTSync c.dataSortingByArrivalorTime c.pmuIsTriggered
    c.configToChange c.dataModified c.pmuTimeQuality c.unlockTime] ++
  (if c.pmuIsTriggered then [.triggerReason c.pmuTimeQuality] else []) ++
  [.frequency (i + 1) c.frequency c.rocof] ++
  ((c.phasor.take c.layout.phasors).mapIdx (fun j ph =>
    [.phasor (j + 1) (i + 1) ph.channelName.text ph.magnitude ph.angle])).flatten ++
  ((c.analog.take c.layout.analogs).mapIdx (fun j an =>
    [.analog (j + 1) (i + 1) an.channelName.text])).flatten ++
  ((c.digital.take c.layout.digitals).mapIdx (fun j dg =>
    [.digital (j + 1) (i + 1) (fun k => (dg.channel k).channelName.text)
      (fun k => (dg.channel k).isEnabled) (fun k => (dg.channel k).status)])).flatten

def listing (i : ℕ) (c : Configuration F) : List (ConfigurationLine F) :=
  [.pmu c.cfgCnt c.stationName.text c.pmuIdcode c.numberOfPhasors c.phasorIsFloatingPoint
    c.phasorIsPolar c.numberOfAnalogs c.analogIsFloatingPoint c.numberOfDigitals c.fNom
    c.freqIsFloatingPoint] ++
  ((c.phasor.take c.layout.phasors).mapIdx (fun j ph =>
    [.phasor (j + 1) (i + 1) ph.channelName.text ph.conversionFactor ph.phasorIsVorI])).flatten ++
  ((c.analog.take c.layout.analogs).mapIdx (fun j an =>
    [.analog (j + 1) (i + 1) an.channelName.text an.analogType an.conversionFactor])).flatten ++
  ((c.digital.take c.layout.digitals).mapIdx (fun j dg =>
    [.digital (j + 1) (i + 1) (fun k => (dg.channel k).channelName.text)
      dg.validInputs])).flatten

end Configuration

theorem appendLoop_iff {α β : Type} {body : ℕ → List β → Option (List β)} {xs : List α}
    (g : ℕ → α → List β) (pass : ∀ j l, body j l = xs[j]?.bind fun x => some (l ++ g j x))
    (n : ℕ) (l u : List β) : forLoop body n l = some u ↔
      n ≤ xs.length ∧ l ++ ((xs.take n).mapIdx g).flatten = u := by
  have spec : ∀ j l u, body j l = some u ↔ ∃ x, xs[j]? = some x ∧ True ∧ l ++ g j x = u := by
    intro j l u
    simp only [pass, Option.bind_eq_some_iff, Option.some.injEq, true_and]
  simpa using forLoop_appends_iff (fun _ => True) g spec n l u

theorem channelLoops_iff {β : Type} {c : Configuration F}
    {phasor analog digital : ℕ → List β → Option (List β)} (gp : ℕ → Phasor F → List β)
    (ga : ℕ → Analog F → List β) (gd : ℕ → Digital → List β)
    (phasors : ∀ j l, phasor j l = c.phasor[j]?.bind fun x => some (l ++ gp j x))
    (analogs : ∀ j l, analog j l = c.analog[j]?.bind fun x => some (l ++ ga j x))
    (digitals : ∀ j l, digital j l = c.digital[j]?.bind fun x => some (l ++ gd j x))
    (l u : List β) :
    ((forLoop phasor c.numberOfPhasors.toNat l).bind fun l =>
      (forLoop analog c.numberOfAnalogs.toNat l).bind fun l =>
        forLoop digital c.numberOfDigitals.toNat l) = some u ↔
      c.CountsInside ∧ l ++ (((c.phasor.take c.layout.phasors).mapIdx gp).flatten ++
        ((c.analog.take c.layout.analogs).mapIdx ga).flatten ++
          ((c.digital.take c.layout.digitals).mapIdx gd).flatten) = u := by
  have phasors := appendLoop_iff gp phasors c.layout.phasors
  have analogs := appendLoop_iff ga analogs c.layout.analogs
  have digitals := appendLoop_iff gd digitals c.layout.digitals
  refine (bind_iff (phasors l) _ u).trans ?_
  refine (and_congr_right (fun _ => bind_iff (analogs _) _ u)).trans ?_
  refine (and_congr_right (fun _ => and_congr_right (fun _ => digitals _ u))).trans ?_
  simp only [Configuration.CountsInside, List.append_assoc, and_assoc]

theorem printDataPmu_iff (self : Client F) (i : ℕ) (lines u : List (DataLine F)) :
    printDataPmu self i lines = some u ↔
      ∃ c, self.configuration[i]? = some c ∧ c.CountsInside ∧ lines ++ c.dataLines i = u := by
  rw [printDataPmu, Option.bind_eq_bind, Option.bind_eq_some_iff]
  refine exists_congr (fun c => and_congr_right (fun _ => ?_))
  refine (channelLoops_iff _ _ _ (fun _ _ => rfl) (fun _ _ => rfl) (fun _ _ => rfl) _ u).trans ?_
  simp only [Configuration.dataLines, List.append_assoc]

theorem printPmu_iff (self : Client F) (i : ℕ) (lines u : List (ConfigurationLine F)) :
    printPmu self i lines = some u ↔
      ∃ c, self.configuration[i]? = some c ∧ c.CountsInside ∧ lines ++ c.listing i = u := by
  rw [printPmu, Option.bind_eq_bind, Option.bind_eq_some_iff]
  refine exists_congr (fun c => and_congr_right (fun _ => ?_))
  refine (channelLoops_iff _ _ _ (fun _ _ => rfl) (fun _ _ => rfl) (fun _ _ => rfl) _ u).trans ?_
  simp only [Configuration.listing, List.append_assoc]

theorem arraysInside_iff (self : Client F) : self.ArraysInside ↔
    self.numPmu.toNat ≤ self.configuration.length ∧
      ∀ c ∈ self.configuration.take self.numPmu.toNat, c.CountsInside := by
  constructor
  · intro inside
    constructor
    · rw [← forall_lt_iff_le]
      intro i hi
      obtain ⟨c, hc, _⟩ := inside i hi
      exact (List.getElem?_eq_some_iff.1 hc).choose
    · intro c hc
      obtain ⟨i, hi⟩ := List.getElem?_of_mem hc
      have lt : i < self.numPmu.toNat :=
        Nat.lt_of_lt_of_le (List.getElem?_eq_some_iff.1 hi).choose (List.length_take_le _ _)
      obtain ⟨d, hd, counts⟩ := inside i lt
      rw [List.getElem?_take_of_lt lt, hd] at hi
      exact Option.some.inj hi ▸ counts
  · rintro ⟨le, counts⟩ i hi
    have hc : self.configuration[i]? = some self.configuration[i] :=
      List.getElem?_eq_getElem (by omega)
    have taken : (self.configuration.take self.numPmu.toNat)[i]? = some self.configuration[i] :=
      (List.getElem?_take_of_lt hi).trans hc
    exact ⟨_, hc, counts _ (List.mem_of_getElem? taken)⟩

namespace Client

/-- The whole text of `printDataStream` and of `printConfiguration`. -/
def dataLines (self : Client F) (time : ParsedTime F) : List (DataLine F) :=
  .timeStamp (self.dataTimeStamp.printed time) ::
    ((self.configuration.take self.numPmu.toNat).mapIdx Configuration.dataLines).flatten

def listing (self : Client F) (time : ParsedTime F) : List (ConfigurationLine F) :=
  .timeStamp (self.configTimeStamp.printed time) ::
    .pdc self.idcode self.numPmu self.timeBase.toInt32 (printedRate self.dataRate) ::
      ((self.configuration.take self.numPmu.toNat).mapIdx Configuration.listing).flatten

end Client

theorem printDataStream_iff (self : Client F) (u : List (DataLine F)) :
    printDataStream self = some u ↔ ∃ time, self.dataTimeStamp.parsedTime = some time ∧
      self.ArraysInside ∧ self.dataLines time = u := by
  rw [printDataStream, Option.bind_eq_bind, Option.bind_eq_some_iff]
  refine exists_congr (fun time => and_congr_right (fun _ => ?_))
  rw [arraysInside_iff]
  exact forLoop_appends_iff _ _ (printDataPmu_iff self) _ _ _

theorem printConfiguration_iff (self : Client F) (u : List (ConfigurationLine F)) :
    printConfiguration self = some u ↔ ∃ time, self.configTimeStamp.parsedTime = some time ∧
      self.ArraysInside ∧ self.listing time = u := by
  rw [printConfiguration, Option.bind_eq_bind, Option.bind_eq_some_iff]
  refine exists_congr (fun time => and_congr_right (fun _ => ?_))
  rw [arraysInside_iff]
  exact forLoop_appends_iff _ _ (printPmu_iff self) _ _ _

theorem mapIdx_eq_of_forall₂ {α β γ : Type} {R : α → β → Prop} {f : ℕ → α → γ} {g : ℕ → β → γ}
    {xs : List α} {ys : List β} (h : List.Forall₂ R xs ys)
    (same : ∀ x y, R x y → ∀ j, f j x = g j y) : xs.mapIdx f = ys.mapIdx g := by
  induction h generalizing f g with
  | nil => rfl
  | cons first _ ih =>
    rw [List.mapIdx_cons, List.mapIdx_cons, same _ _ first 0,
      ih (fun x y hxy j => same x y hxy (j + 1))]

/-- `%s` does not leave the name. -/
def Name.Ends (name : Name) : Prop := ∃ rest, name.toList = name.text ++ 0 :: rest

structure Configuration.NamesEnd (c : Configuration F) : Prop where
  stationName : c.stationName.Ends
  phasor : ∀ ph ∈ c.phasor, ph.channelName.Ends
  analog : ∀ an ∈ c.analog, an.channelName.Ends
  digital : ∀ dg ∈ c.digital, ∀ k, (dg.channel k).channelName.Ends

theorem forall_of_map_eq {α β : Type} {g : α → β} {P : β → Prop} {xs ys : List α}
    (same : ys.map g = xs.map g) (all : ∀ x ∈ xs, P (g x)) : ∀ y ∈ ys, P (g y) := by
  intro y hy
  obtain ⟨x, hx, value⟩ := List.mem_map.1 (same ▸ List.mem_map_of_mem hy)
  exact value ▸ all x hx

theorem exists_takeWhile_zero {l : List UInt8} (member : 0 ∈ l) :
    ∃ rest, l = l.takeWhile (· != 0) ++ 0 :: rest := by
  induction l with
  | nil => cases member
  | cons b l ih =>
    by_cases zero : b = 0
    · exact ⟨l, by simp [zero]⟩
    · obtain ⟨rest, same⟩ := ih ((List.mem_cons.1 member).resolve_left (Ne.symm zero))
      refine ⟨rest, ?_⟩
      rw [List.takeWhile_cons_of_pos (by simpa using zero), List.cons_append, ← same]

/-- Behind the 16 bytes that are copied the cleared memory follows. -/
theorem copyName_ends (bytes : List.Vector UInt8 16) : (copyName Name.zero bytes).Ends := by
  apply exists_takeWhile_zero
  rw [copyName, List.Vector.toList_append]
  exact List.mem_append_right _ List.mem_cons_self

theorem digitalsAt_names (l : Layout) (m : ℕ → UInt8) (p : ℕ) :
    ∀ dg ∈ digitalsAt l m p, ∀ k, (dg.channel k).channelName.Ends := by
  intro dg hdg k
  obtain ⟨j, _, rfl⟩ := List.mem_map.1 hdg
  have name : ((Digital.storeDigunit m (l.digunits p + 4 * j)
      (Digital.zero.storeName m (p + 256 * j) 16)).channel k).channelName =
      copyName Name.zero (Memory.bytesAt m 16 (p + 256 * j + 16 * k.val)) := by
    simp only [Digital.storeDigunit, markBits_channel]
    split_ifs <;> simp [Digital.storeName, Digital.zero]
  rw [name]
  exact copyName_ends _

section
variable {D : Type} [Platform F D]

theorem recordAt_namesEnd (first : Layout) (m : ℕ → UInt8) (p : ℕ) :
    (recordAt first m p : Configuration F).NamesEnd := by
  constructor
  case stationName => exact copyName_ends _
  case phasor =>
    intro ph hph
    have phasors : ph ∈ phasorsAt first m (p + 26) := (List.mem_ite_nil_right.1 hph).2
    obtain ⟨j, _, rfl⟩ := List.mem_map.1 phasors
    have name : (Phasor.storePhunit first.phasorIsFloatingPoint m
        (first.phunits (p + 26) + 4 * j) { Phasor.zero with
          channelName := nameAt m (p + 26 + 16 * j) } : Phasor F).channelName =
        nameAt m (p + 26 + 16 * j) := by
      rw [Phasor.storePhunit, setVorI_eq rfl]
    rw [name]
    exact copyName_ends _
  case analog =>
    intro an han
    have analogs : an ∈ analogsAt first m (p + 26 + 16 * first.phasors) :=
      (List.mem_ite_nil_right.1 han).2
    obtain ⟨j, _, rfl⟩ := List.mem_map.1 analogs
    exact copyName_ends _
  case digital =>
    intro dg hdg
    exact digitalsAt_names _ _ _ dg (List.mem_ite_nil_right.1 hdg).2

theorem Configuration.NamesEnd.of_installed {c c' : Configuration F} (ends : c.NamesEnd)
    (same : c'.installed = c.installed) : c'.NamesEnd := by
  constructor
  case stationName =>
    have name : c'.stationName = c.stationName := congrArg InstalledPmu.stationName same
    exact name ▸ ends.stationName
  case phasor =>
    have phasor : c'.phasor.map Phasor.installed = c.phasor.map Phasor.installed :=
      congrArg InstalledPmu.phasor same
    have names : c'.phasor.map Phasor.channelName = c.phasor.map Phasor.channelName :=
      map_of_map_eq phasor Prod.fst
    exact forall_of_map_eq names ends.phasor
  case analog =>
    have analog : c'.analog.map Analog.installed = c.analog.map Analog.installed :=
      congrArg InstalledPmu.analog same
    have names : c'.analog.map Analog.channelName = c.analog.map Analog.channelName :=
      map_of_map_eq analog Prod.fst
    exact forall_of_map_eq names ends.analog
  case digital =>
    have digital : c'.digital.map Digital.installed = c.digital.map Digital.installed :=
      congrArg InstalledPmu.digital same
    have names : c'.digital.map (fun dg k => (dg.channel k).channelName) =
        c.digital.map (fun dg k => (dg.channel k).channelName) :=
      map_of_map_eq digital (fun x k => (x.2.2 k).1)
    exact forall_of_map_eq (P := fun names : Fin 16 → Name => ∀ k, (names k).Ends) names
      ends.digital

/-- In every state that a fresh client can reach, the names that it prints have an end. -/
theorem reachable_names_end {pmuIdCode : ℤ} {timeoutInMs : UInt32}
    {bufferSnd bufferRcv : List UInt8} {events : List (Event F)} {returned : List ℤ}
    {final : Client F} (h : run handle (Client.fresh pmuIdCode timeoutInMs bufferSnd bufferRcv)
      events = some (returned, final)) : ∀ c ∈ final.configuration, c.NamesEnd :=
  run_records recordAt_namesEnd
    (fun _ m t p ends => ends.of_installed (blockAt_installed _ m t p))
    (fun _ hc => absurd hc List.not_mem_nil) h

/-- What `%s` prints of a name once it is stored. -/
def SentName.text (name : SentName) : List UInt8 := name.toList.takeWhile (· != 0)

theorem paddedName_text (name : SentName) : (paddedName name).text = name.text := by
  rw [Name.text, paddedName_toList, SentName.text, List.takeWhile_append]
  split_ifs with whole
  · have nothing : List.takeWhile (fun x : UInt8 => x != 0) [0, 0, 0, 0] = [] := rfl
    rw [nothing, List.append_nil]
    exact ((List.takeWhile_prefix _).eq_of_length whole).symm
  · rfl

/-- `floating` says whether the first PMU of the frame has floating-point phasors: the factors
    of all PMUs are left at 1 then. -/
def PmuRecord.listing (floating : Bool) (i : ℕ) (r : PmuRecord) : List (ConfigurationLine F) :=
  [.pmu r.cfgcnt r.stationName.text r.idCode (UInt16.ofNat r.phasors.length)
    r.layout.phasorIsFloatingPoint r.layout.phasorIsPolar (UInt16.ofNat r.analogs.length)
    r.layout.analogIsFloatingPoint (UInt16.ofNat r.digitals.length)
    (FloatArith.ofInt (if r.fnom &&& 0x1 = 0 then 60 else 50)) r.layout.freqIsFloatingPoint] ++
  (r.phasors.mapIdx (fun j ch => [.phasor (j + 1) (i + 1) ch.name.text
    (if floating then FloatArith.ofInt 1 else scalePhunit ch.factor) ch.isVoltage])).flatten ++
  (r.analogs.mapIdx (fun j ch => [.analog (j + 1) (i + 1) ch.name.text ch.analogType
    (FloatArith.ofInt 1)])).flatten ++
  (r.digitals.mapIdx (fun j d => [.digital (j + 1) (i + 1) (fun k => (d.names k).text)
    d.valid])).flatten

namespace Cfg2

def firstFloating (f : Cfg2) : Bool :=
  match f.records with
  | [] => false
  | first :: _ => first.layout.phasorIsFloatingPoint

def listing (f : Cfg2) : List (ConfigurationLine F) :=
  (f.records.mapIdx (PmuRecord.listing f.firstFloating)).flatten

end Cfg2

theorem Configuration.Carries.listing {c : Configuration F} {r : PmuRecord} {floating : Bool}
    (carries : c.Carries r)
    (phasor : c.phasor = r.phasors.map (fun ch => ch.received floating))
    (analog : c.analog = r.analogs.map AnalogChannel.received)
    (digital : c.digital = r.digitals.map DigitalWord.received) (i : ℕ) :
    c.listing i = r.listing floating i := by
  have counts : ∀ {w : UInt16} {n : ℕ}, w.toNat = n → w = UInt16.ofNat n := by
    rintro w n rfl
    exact UInt16.ofNat_toNat.symm
  have layout := carries.layout
  have phasors := counts (congrArg Layout.phasors layout)
  have analogs := counts (congrArg Layout.analogs layout)
  have digitals := counts (congrArg Layout.digitals layout)
  obtain ⟨phasorCount, analogCount, digitalCount⟩ := carries.arraysMatch
  have phasorFloat : c.phasorIsFloatingPoint = _ := congrArg Layout.phasorIsFloatingPoint layout
  have phasorPolar : c.phasorIsPolar = _ := congrArg Layout.phasorIsPolar layout
  have freqFloat : c.freqIsFloatingPoint = _ := congrArg Layout.freqIsFloatingPoint layout
  have analogFloat : c.analogIsFloatingPoint = _ := congrArg Layout.analogIsFloatingPoint layout
  have allPhasors : c.phasor.take c.layout.phasors = c.phasor :=
    List.take_of_length_le phasorCount.le
  have allAnalogs : c.analog.take c.layout.analogs = c.analog :=
    List.take_of_length_le analogCount.le
  have allDigitals : c.digital.take c.layout.digitals = c.digital :=
    List.take_of_length_le digitalCount.le
  rw [Configuration.listing, allPhasors, allAnalogs, allDigitals, phasor, analog, digital,
    mapIdx_map_eq, mapIdx_map_eq, mapIdx_map_eq, carries.cfgCnt, carries.stationName,
    carries.pmuIdcode, carries.fNom, phasors, analogs, digitals, phasorFloat, phasorPolar,
    freqFloat, analogFloat]
  simp only [PmuRecord.listing, ← paddedName_text]
  rfl

theorem declaredAt_floating {m : ℕ → UInt8} {f : Cfg2} {i : ℕ} {r : PmuRecord}
    (h : Holds m 20 (f.records.flatMap PmuRecord.encode)) (hr : f.records[i]? = some r) :
    (declaredAt m 20).phasorIsFloatingPoint = f.firstFloating := by
  cases hf : f.records with
  | nil => simp [hf] at hr
  | cons first rest =>
    have hfirst : f.records[0]? = some first := by rw [hf]; rfl
    have own : declaredAt m 20 = first.layout :=
      (declaredAt_of_holds (record_of_holds h hfirst)).1
    rw [own, Cfg2.firstFloating, hf]

theorem configurationAt_channels {m : ℕ → UInt8} {f : Cfg2} (uniform : f.Uniform)
    (h : Holds m 20 (f.records.flatMap PmuRecord.encode)) {n : ℕ} (hn : n = f.records.length) :
    List.Forall₂ (fun (c : Configuration F) r => c.Carries r ∧
        c.phasor = r.phasors.map (fun ch => ch.received f.firstFloating) ∧
        c.analog = r.analogs.map AnalogChannel.received ∧
        c.digital = r.digitals.map DigitalWord.received)
      (configurationAt m 20 n) f.records := by
  obtain ⟨same, each⟩ := uniform_sameCounts uniform h hn
  apply forall₂_map_range hn
  intro i r hr
  have lt := (List.getElem?_eq_some_iff.1 hr).choose
  have holds := record_of_holds h hr
  obtain ⟨counts, factors⟩ := each i r hr
  obtain ⟨phasor, analog, digital⟩ := recordAt_channels (F := F) holds counts
  rw [declaredAt_floating h hr] at phasor
  rw [recordPos_eq_formatPos same (by omega)]
  exact ⟨recordAt_carries holds counts factors, phasor, analog, digital⟩

theorem configurationAt_listing {m : ℕ → UInt8} {f : Cfg2} (uniform : f.Uniform)
    (h : Holds m 20 (f.records.flatMap PmuRecord.encode)) {n : ℕ} (hn : n = f.records.length) :
    ((configurationAt m 20 n : List (Configuration F)).mapIdx Configuration.listing).flatten =
      f.listing := by
  have records := configurationAt_channels (F := F) uniform h hn
  rw [Cfg2.listing, mapIdx_eq_of_forall₂ records (fun c r ⟨carries, phasor, analog, digital⟩ =>
    carries.listing phasor analog digital)]

theorem mapIdx_take_of_map_eq {α β γ : Type} (line : ℕ → β → γ) {f : α → β} {l l' : List α}
    (h : l'.map f = l.map f) (n : ℕ) : (l'.take n).mapIdx (fun j x => line j (f x)) =
      (l.take n).mapIdx (fun j x => line j (f x)) := by
  rw [← mapIdx_map_eq line f, ← mapIdx_map_eq line f, List.map_take, List.map_take, h]

theorem listing_of_installed {c c' : Configuration F} (same : c'.installed = c.installed) (i : ℕ) :
    c'.listing i = c.listing i := by
  have phasor : c'.phasor.map Phasor.installed = c.phasor.map Phasor.installed :=
    congrArg InstalledPmu.phasor same
  have analog : c'.analog.map Analog.installed = c.analog.map Analog.installed :=
    congrArg InstalledPmu.analog same
  have digital : c'.digital.map Digital.installed = c.digital.map Digital.installed :=
    congrArg InstalledPmu.digital same
  have layout : c'.layout = c.layout := congrArg InstalledPmu.layout same
  have phasors := mapIdx_take_of_map_eq (fun j (x : Name × Bool × F) =>
    [ConfigurationLine.phasor (j + 1) (i + 1) x.1.text x.2.2 x.2.1]) phasor c.layout.phasors
  have analogs := mapIdx_take_of_map_eq (fun j (x : Name × UInt8 × F) =>
    [ConfigurationLine.analog (j + 1) (i + 1) x.1.text x.2.1 x.2.2]) analog c.layout.analogs
  have digitals := mapIdx_take_of_map_eq (fun j (x : UInt16 × UInt16 × (Fin 16 → Name × Bool)) =>
    [(ConfigurationLine.digital (j + 1) (i + 1) (fun k => (x.2.2 k).1.text) x.2.1 :
      ConfigurationLine F)]) digital c.layout.digitals
  simp only [Phasor.installed] at phasors
  simp only [Analog.installed] at analogs
  simp only [Digital.installed] at digitals
  rw [Configuration.listing, Configuration.listing, layout, phasors, analogs, digitals]
  simp only [Configuration.installed, InstalledPmu.mk.injEq] at same
  simp only [same]

theorem listing_of_installation {self self' : Client F}
    (same : self'.installation = self.installation) (time : ParsedTime F) :
    self'.listing time = self.listing time := by
  have records : List.Forall₂ (· = ·) (self'.configuration.map Configuration.installed)
      (self.configuration.map Configuration.installed) := by
    rw [List.forall₂_eq_eq_eq]
    exact congrArg Installed.pmus same
  rw [List.forall₂_map_left_iff, List.forall₂_map_right_iff] at records
  have count : self'.numPmu = self.numPmu := congrArg Installed.numPmu same
  have listings := mapIdx_eq_of_forall₂ (List.forall₂_take self.numPmu.toNat records)
    (fun _ _ => listing_of_installed)
  simp only [Client.installation, Installed.mk.injEq] at same
  simp only [Client.listing, count, listings, same]

theorem data_step_installation {self self' : Client F} {e : Event F} {r : ℤ}
    (data : e.isDataFrame) (step : handle self e = some (r, self')) :
    self'.installation = self.installation := by
  rcases handle_cases step with ⟨_, _, _, rfl⟩ | ⟨_, _, rfl⟩
  · cases e with
    | configurationFrame x => cases data
    | dataFrame x temps => exact storeData_installation self temps x.buffer.byte
  · rfl

/-- The time stamp of the frame is read in milliseconds, whatever its time base is. -/
def Cfg2.stamp (f : Cfg2) (timeStamp : Time F) : Time F :=
  timeStamp.receive 1000 f.soc (f.fracsec / 0x1000000).toUInt8 (f.fracsec % 0x1000000)

theorem handle_configuration_stamp {self installed : Client F} {f : Cfg2}
    (fits : f.size ≤ BUFER_LENGTH) (step : handle self (f.event fits) = some (0, installed)) :
    installed.configTimeStamp = f.stamp self.configTimeStamp := by
  obtain ⟨head, _⟩ := frame_parts (buffer_holds fits)
  simp only [Cfg2.encodeHead, holds_append_iff, List.length_append, encode16_length,
    encode32_length, and_assoc] at head
  obtain ⟨_, _, _, soc, fracsec, _⟩ := head
  rcases handle_cases step with ⟨_, _, _, rfl⟩ | ⟨impossible, _⟩
  · exact timeAt_of_words (word32_of_holds soc) (fracsec 0 _ rfl) (word24_of_holds fracsec)
      self.configTimeStamp 1000
  · simp at impossible

def Cfg2.printed (f : Cfg2) (timeStamp : Time F) : List (ConfigurationLine F) :=
  .timeStamp ((f.stamp timeStamp).printed (sentTime 1000 f.soc (f.fracsec % 0x1000000))) ::
    .pdc f.idcode (UInt16.ofNat f.records.length) f.timeBase.toInt32 (printedRate f.dataRate) ::
      f.listing

theorem handle_configuration_printed {self installed : Client F} {f : Cfg2}
    (fits : f.size ≤ BUFER_LENGTH) (uniform : f.Uniform)
    (step : handle self (f.event fits) = some (0, installed)) :
    ∃ time, installed.configTimeStamp.parsedTime = some time ∧
      installed.listing time = f.printed self.configTimeStamp := by
  have stamp := handle_configuration_stamp fits step
  obtain ⟨head, records, rate, _⟩ := frame_parts (buffer_holds fits)
  obtain ⟨_, _, _, idcode, timeBase, count⟩ := head_of_holds head
  have listed := configurationAt_listing (F := F) uniform records count
  have rate := word16_of_holds rate
  have base : (1000 : UInt32) ≠ 0 := by decide
  obtain ⟨parsed, _⟩ := timeReceive_of_base base self.configTimeStamp f.soc
    (f.fracsec / 0x1000000).toUInt8 (f.fracsec % 0x1000000)
  refine ⟨sentTime 1000 f.soc (f.fracsec % 0x1000000), stamp ▸ parsed, ?_⟩
  rw [Client.listing, stamp]
  rcases handle_cases step with ⟨_, _, _, rfl⟩ | ⟨impossible, _⟩
  · have store : (f.event fits).store self = self.storeConfiguration f.buffer.byte f.size := by
      rw [← encode_length f]
      rfl
    have whole : (configurationAt f.buffer.byte 20 (word16 f.buffer.byte 18).toNat :
        List (Configuration F)).take (word16 f.buffer.byte 18).toNat =
          configurationAt f.buffer.byte 20 (word16 f.buffer.byte 18).toNat :=
      List.take_of_length_le (by simp [configurationAt])
    rw [store, Client.storeConfiguration]
    simp only [whole, listed, idcode, timeBase, rate, ← count, UInt16.ofNat_toNat, Cfg2.printed]
  · simp at impossible

/-- Whatever data frames come in behind a configuration, damaged ones among them, what is
    printed is the configuration that was sent. -/
theorem sent_configuration_listed {self final : Client F} {f : Cfg2}
    (known : self.idcode = f.idcode) (fits : f.size ≤ BUFER_LENGTH) (uniform : f.Uniform)
    {events : List (Event F)} (data : ∀ e ∈ events, e.isDataFrame) {returned : List ℤ}
    (h : run handle self (f.event fits :: events) = some (returned, final)) :
    printConfiguration final = some (f.printed self.configTimeStamp) := by
  obtain ⟨installed, first, carries, _⟩ := handle_configuration (F := F) known fits uniform
  obtain ⟨r, t, rs, step, later, _⟩ := (run_cons_iff _ _ _ _ _ _).1 h
  rw [first] at step
  cases step
  have same : final.installation = installed.installation :=
    run_invariant (fun s => s.installation = installed.installation)
      (fun s e he r t hs step => (data_step_installation (data e he) step).trans hs) rfl later
  have carries' := carries.of_installation same
  have kept : final.configTimeStamp = installed.configTimeStamp :=
    congrArg Installed.configTimeStamp same
  obtain ⟨time, stamped, printed⟩ := handle_configuration_printed fits uniform first
  exact (printConfiguration_iff final _).2 ⟨time, kept ▸ stamped,
    carries'.arraysMatch.arraysInside, (listing_of_installation same time).trans printed⟩

end

section
attribute [local instance] ExactRational.platform

theorem voltageStation_printed :
    ∃ time, (voltageStation.printed Time.zero : List (ConfigurationLine ℚ)) =
      [.timeStamp time, .pdc 7 1 1000 (.framesPerSecond 50),
        .pmu 4 (List.replicate 16 83) 7 1 true true 0 true 1 50 true,
        .phasor 1 1 (List.replicate 16 86) 1 true,
        .digital 1 1 (fun _ => List.replicate 16 68) 0xFFFF] := by
  refine ⟨(voltageStation.stamp Time.zero).printed (sentTime 1000 0 0), ?_⟩
  simp only [Cfg2.printed, Cfg2.listing, Cfg2.firstFloating, voltageStation, voltageRecord]
  rfl

theorem voltage_listed :
    ∃ final time, run handle (Client.fresh 7 0 [] [])
        [voltageStation.event voltageStation_size, (voltageSent 10 1).event] =
          some ([0, 0], final) ∧
      printConfiguration final = some [.timeStamp time, .pdc 7 1 1000 (.framesPerSecond 50),
        .pmu 4 (List.replicate 16 83) 7 1 true true 0 true 1 50 true,
        .phasor 1 1 (List.replicate 16 86) 1 true,
        .digital 1 1 (fun _ => List.replicate 16 68) 0xFFFF] := by
  have known : (Client.fresh 7 0 [] [] : Client ℚ).idcode = voltageStation.idcode := by
    decide +kernel
  obtain ⟨installed, first, carries, _⟩ :=
    handle_configuration known voltageStation_size voltageStation_uniform
  have fits : ∀ x ∈ [voltageSent 10 1], x.frame.Fits installed := by
    intro x hx
    obtain rfl := List.mem_singleton.1 hx
    exact (voltageFrame_madeFor 10 1).fits ((handle_idcode first).trans known) carries
  have data : ∀ e ∈ [(voltageSent 10 1).event], e.isDataFrame := by
    intro e he
    obtain rfl := List.mem_singleton.1 he
    rfl
  have h : run handle (Client.fresh 7 0 [] [])
      [voltageStation.event voltageStation_size, (voltageSent 10 1).event] =
        some ([0, 0], [voltageSent 10 1].foldl Client.take installed) := by
    have later := run_takes fits
    exact (run_cons_iff handle _ _ _ _ _).2 ⟨0, installed, [0], first, later, rfl⟩
  have listed := sent_configuration_listed known voltageStation_size voltageStation_uniform data h
  obtain ⟨time, lines⟩ := voltageStation_printed
  exact ⟨_, time, h, listed.trans (congrArg some lines)⟩

end
end Khorjin
