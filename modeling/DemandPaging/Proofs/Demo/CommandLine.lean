import DemandPaging.Demo.Options
import DemandPaging.Proofs.Text.Literal
import Mathlib.Logic.Relator

/-!
# The grammar of the command line

A command line is one size with settings before and after it; a setting is an option, in one of its
spellings, and the argument that follows it. An argument list is understood exactly if it has this
shape and every text in it means what is wanted there. Each option is then set to what its last value
means, so that only the size and the values of each option, in their order, matter.
-/

namespace DemandPaging.Demo

/-! ## What the texts mean -/

/-- The text means the machine word `n`. -/
def MeansWord (text : String) (n : Nat) : Prop := Text.Numeral text n ∧ n < wordLimit

/-- The text means the policy `kind`. -/
def MeansPolicy (text : String) (kind : PolicyKind) : Prop := Text.Names text kind.text

/-- What the last of the texts means; `fallback` if there is none. -/
def LastMeans {α : Type} (means : String → α → Prop) (fallback : α) (texts : List String) (a : α) :
    Prop :=
  match texts.getLast? with
  | none => a = fallback
  | some text => means text a

namespace OptionName

/-- The ways to write an option. -/
def spellings : OptionName → List String
  | seed => ["--seed", "-s"]
  | budget => ["--max-resident", "--max_resident", "-m"]
  | policy => ["--policy", "-p"]

/-- The text means something that the option can be set to. -/
def Takes : OptionName → String → Prop
  | seed, text | budget, text => ∃ n, MeansWord text n
  | policy, text => ∃ kind, MeansPolicy text kind

end OptionName

/-! ## Command lines -/

/-- An option as it was written, and its value. -/
structure Setting where
  /-- The option. -/
  option : OptionName
  /-- The argument that stands for the option. -/
  spelling : String
  /-- The argument after it. -/
  value : String
  /-- The option is written in this way. -/
  spelling_mem : spelling ∈ option.spellings := by decide

namespace Setting

/-- The arguments of a setting. -/
def arguments (s : Setting) : List String := [s.spelling, s.value]

/-- The values that settings give to an option, in their order. -/
def values (name : OptionName) (settings : List Setting) : List String :=
  (settings.filter (·.option = name)).map (·.value)

end Setting

/-- A size with settings around it. -/
structure CommandLine where
  /-- The settings before the size. -/
  before : List Setting
  /-- The size. -/
  size : String
  /-- The settings after the size. -/
  after : List Setting
  /-- The size does not begin with a dash. -/
  size_plain : size.toList.head? ≠ some '-' := by decide

namespace CommandLine

/-- The arguments of a command line. -/
def arguments (l : CommandLine) : List String :=
  l.before.flatMap Setting.arguments ++ l.size :: l.after.flatMap Setting.arguments

/-- All settings. -/
def settings (l : CommandLine) : List Setting := l.before ++ l.after

/-- The values of an option, in their order. -/
def values (l : CommandLine) (name : OptionName) : List String := Setting.values name l.settings

/-- Every value, also one that a later one replaces, and the size mean what is wanted there. -/
structure Readable (l : CommandLine) : Prop where
  settings : ∀ s ∈ l.settings, s.option.Takes s.value
  size : ∃ n, MeansWord l.size n

/-- What the command line means when the time is `now`: the last value of each option counts, and a
seed that is missing or zero is replaced by the time. -/
structure Means (l : CommandLine) (now : Nat) (o : Options) : Prop where
  seed : ∃ n, LastMeans MeansWord 0 (l.values .seed) n ∧ o.seed = if n = 0 then now else n
  budget : LastMeans MeansWord defaultBudget (l.values .budget) o.budget
  policy : LastMeans MeansPolicy default (l.values .policy) o.policy
  size : MeansWord l.size o.size

/-- The command lines give the same values to each option, in the same order, and the same size;
they may spell the options and interleave all this differently. -/
structure Rearranges (l l' : CommandLine) : Prop where
  values : ∀ name, l.values name = l'.values name
  size : l.size = l'.size

end CommandLine

/-! ## The last value -/

section LastMeans

variable {α : Type} {means : String → α → Prop} {texts texts' : List String} {text : String}
  {a b c : α}

theorem LastMeans.append (h : LastMeans means a texts b) (h' : LastMeans means b texts' c) :
    LastMeans means a (texts ++ texts') c := by
  unfold LastMeans at h h' ⊢
  rw [List.getLast?_append]
  cases htexts' : texts'.getLast? with
  | none =>
    rw [htexts'] at h'
    cases h'
    exact h
  | some text =>
    rw [htexts'] at h'
    exact h'

theorem LastMeans.unique (hmeans : Relator.RightUnique means)
    (hb : LastMeans means a texts b) (hc : LastMeans means a texts c) : b = c := by
  unfold LastMeans at hb hc
  cases htexts : texts.getLast? with
  | none =>
    rw [htexts] at hb hc
    exact hb.trans hc.symm
  | some text =>
    rw [htexts] at hb hc
    exact hmeans hb hc

end LastMeans

namespace Setting

variable {name : OptionName} {text : String}

theorem values_append (name : OptionName) (settings settings' : List Setting) :
    values name (settings ++ settings') = values name settings ++ values name settings' := by
  rw [values, List.filter_append, List.map_append]
  rfl

theorem mem_values {settings : List Setting} :
    text ∈ values name settings ↔ ∃ s ∈ settings, s.option = name ∧ s.value = text := by
  simp [values, and_assoc]

end Setting

/-! ## Reading a text -/

theorem bind_eq_ok_iff {ε α β : Type} {x : Except ε α} {f : α → Except ε β} {b : β} :
    x >>= f = .ok b ↔ ∃ a, x = .ok a ∧ f a = .ok b := by
  cases x with
  | error e => exact iff_of_false nofun fun ⟨_, h, _⟩ => nomatch h
  | ok a => exact ⟨fun h => ⟨a, rfl, h⟩, fun ⟨_, rfl, h⟩ => h⟩

theorem number_eq_ok_iff {text : String} {n : Nat} : number text = .ok n ↔ MeansWord text n := by
  rw [MeansWord, ← Text.unsigned?_eq_some_iff, number]
  cases Text.unsigned? wordLimit text with
  | none => exact iff_of_false nofun nofun
  | some m => simp

theorem number_bind_eq_ok_iff {α : Type} {f : Nat → α} {text : String} {a : α} :
    (number text >>= fun n => pure (f n)) = .ok a ↔ ∃ n, MeansWord text n ∧ f n = a := by
  rw [bind_eq_ok_iff]
  exact exists_congr fun n => and_congr number_eq_ok_iff ⟨Except.ok.inj, congrArg Except.ok⟩

theorem rightUnique_meansWord : Relator.RightUnique MeansWord := by
  intro text m n hm hn
  rw [← number_eq_ok_iff] at hm hn
  exact Except.ok.inj (hm.symm.trans hn)

theorem rightUnique_meansPolicy : Relator.RightUnique MeansPolicy := by
  intro text kind kind' h h'
  rw [MeansPolicy, ← PolicyKind.ofText?_eq_some_iff] at h h'
  exact Option.some.inj (h.symm.trans h')

namespace Argument

variable {text : String} {name : OptionName}

theorem ofText_eq_option_iff : ofText text = .option name ↔ text ∈ name.spellings := by
  cases name <;> grind [ofText, OptionName.spellings]

/-- Every option, and every wish for help, begins with a dash. -/
theorem ofText_eq_plain_iff : ofText text = .plain ↔ text.toList.head? ≠ some '-' := by
  unfold ofText
  split_ifs with hseed hbudget hpolicy hhelp hdash
  · rcases hseed with rfl | rfl <;> decide
  · rcases hbudget with rfl | rfl | rfl <;> decide
  · rcases hpolicy with rfl | rfl <;> decide
  · rcases hhelp with rfl | rfl <;> decide
  · exact iff_of_false nofun (not_not_intro hdash)
  · exact iff_of_true rfl hdash

end Argument

/-! ## Reading settings -/

namespace Draft

/-- Take over settings, one after the other. -/
def setAll (settings : List Setting) (d : Draft) : Except UsageError Draft :=
  settings.foldlM (fun d s => d.setOption s.option s.value) d

/-- `d'` is what settings that could all be read make of `d`. -/
structure SetBy (d : Draft) (settings : List Setting) (d' : Draft) : Prop where
  takes : ∀ s ∈ settings, s.option.Takes s.value
  seed : LastMeans MeansWord (d.seed.getD 0) (Setting.values .seed settings) (d'.seed.getD 0)
  budget : LastMeans MeansWord d.budget (Setting.values .budget settings) d'.budget
  policy : LastMeans MeansPolicy d.policy (Setting.values .policy settings) d'.policy
  size : d'.size = d.size

variable {d d' d₁ d₂ : Draft} {settings settings' : List Setting}
  {name : OptionName} {text : String} {s : Setting}

theorem SetBy.refl (d : Draft) : d.SetBy [] d := ⟨nofun, rfl, rfl, rfl, rfl⟩

theorem SetBy.trans (h : d.SetBy settings d₁) (h' : d₁.SetBy settings' d₂) :
    d.SetBy (settings ++ settings') d₂ where
  takes := List.forall_mem_append.mpr ⟨h.takes, h'.takes⟩
  seed := Setting.values_append .. ▸ h.seed.append h'.seed
  budget := Setting.values_append .. ▸ h.budget.append h'.budget
  policy := Setting.values_append .. ▸ h.policy.append h'.policy
  size := h'.size.trans h.size

/-- A single setting gives a value to its own option and none to the others. -/
theorem setBy_of_setOption (h : d.setOption s.option s.value = .ok d') : d.SetBy [s] d' := by
  obtain ⟨name, spelling, value, hmem⟩ := s
  cases name with
  | seed =>
    obtain ⟨n, hn, rfl⟩ := number_bind_eq_ok_iff.mp h
    exact ⟨List.forall_mem_singleton.mpr ⟨n, hn⟩, hn, rfl, rfl, rfl⟩
  | budget =>
    obtain ⟨n, hn, rfl⟩ := number_bind_eq_ok_iff.mp h
    exact ⟨List.forall_mem_singleton.mpr ⟨n, hn⟩, rfl, hn, rfl, rfl⟩
  | policy =>
    simp only [setOption] at h
    split at h
    · next kind hkind =>
      cases h
      have hmeans : MeansPolicy value kind := PolicyKind.ofText?_eq_some_iff.mp hkind
      exact ⟨List.forall_mem_singleton.mpr ⟨kind, hmeans⟩, rfl, rfl, hmeans, rfl⟩
    · cases h

theorem exists_setOption (h : name.Takes text) (d : Draft) :
    ∃ d', d.setOption name text = .ok d' := by
  cases name with
  | seed =>
    obtain ⟨n, hn⟩ := h
    exact ⟨_, number_bind_eq_ok_iff.mpr ⟨n, hn, rfl⟩⟩
  | budget =>
    obtain ⟨n, hn⟩ := h
    exact ⟨_, number_bind_eq_ok_iff.mpr ⟨n, hn, rfl⟩⟩
  | policy =>
    obtain ⟨kind, hkind⟩ := h
    rw [setOption, PolicyKind.ofText?_eq_some_iff.mpr hkind]
    exact ⟨_, rfl⟩

theorem setBy_of_setAll (h : d.setAll settings = .ok d') : d.SetBy settings d' := by
  induction settings generalizing d with
  | nil =>
    cases h
    exact SetBy.refl _
  | cons s settings ih =>
    obtain ⟨d₁, hs, hrest⟩ := bind_eq_ok_iff.mp h
    exact (setBy_of_setOption hs).trans (ih hrest)

theorem exists_setAll (h : ∀ s ∈ settings, s.option.Takes s.value) (d : Draft) :
    ∃ d', d.setAll settings = .ok d' := by
  induction settings generalizing d with
  | nil => exact ⟨d, rfl⟩
  | cons s settings ih =>
    obtain ⟨hs, hrest⟩ := List.forall_mem_cons.mp h
    obtain ⟨d₁, hd₁⟩ := exists_setOption hs d
    obtain ⟨d', hd'⟩ := ih hrest d₁
    exact ⟨d', bind_eq_ok_iff.mpr ⟨d₁, hd₁, hd'⟩⟩

/-! ## Reading argument lists -/

theorem readAll_setting (s : Setting) (rest : List String) (d : Draft) :
    readAll (s.arguments ++ rest) d = d.setOption s.option s.value >>= readAll rest := by
  change readAll (s.spelling :: s.value :: rest) d = _
  rw [readAll.eq_def]
  simp only [Argument.ofText_eq_option_iff.mpr s.spelling_mem]

theorem readAll_settings (settings : List Setting) (rest : List String) (d : Draft) :
    readAll (settings.flatMap Setting.arguments ++ rest) d = d.setAll settings >>= readAll rest := by
  induction settings generalizing d with
  | nil => rfl
  | cons s settings ih =>
    rw [List.flatMap_cons, List.append_assoc, readAll_setting, setAll, List.foldlM_cons, bind_assoc]
    exact congrArg _ (funext ih)

theorem readAll_settings_only (settings : List Setting) (d : Draft) :
    readAll (settings.flatMap Setting.arguments) d = d.setAll settings := by
  rw [← List.append_nil (settings.flatMap _), readAll_settings]
  exact bind_pure _

theorem readAll_size (hplain : text.toList.head? ≠ some '-') (rest : List String) (d : Draft) :
    readAll (text :: rest) d = d.setSize text >>= readAll rest := by
  rw [readAll.eq_def]
  simp only [Argument.ofText_eq_plain_iff.mpr hplain]

theorem setSize_eq_ok_iff : d.setSize text = .ok d' ↔
    d.size = none ∧ ∃ n, MeansWord text n ∧ { d with size := some n } = d' := by
  rw [setSize]
  cases hsize : d.size with
  | none => exact number_bind_eq_ok_iff.trans (and_iff_right rfl).symm
  | some n => exact iff_of_false nofun fun h => nomatch h.1

/-- The first size is taken over between the settings before it and what follows; it must not be
known already. -/
theorem readAll_upto_size_eq_ok_iff {rest : List String} (hplain : text.toList.head? ≠ some '-') :
    readAll (settings.flatMap Setting.arguments ++ text :: rest) d = .ok d' ↔
      d.size = none ∧ ∃ d₁, d.setAll settings = .ok d₁ ∧ ∃ n, MeansWord text n ∧
        readAll rest { d₁ with size := some n } = .ok d' := by
  rw [readAll_settings, bind_eq_ok_iff]
  constructor
  · rintro ⟨d₁, hd₁, hrest⟩
    rw [readAll_size hplain, bind_eq_ok_iff] at hrest
    obtain ⟨d₂, hset, hrest⟩ := hrest
    obtain ⟨hmissing, n, hn, rfl⟩ := setSize_eq_ok_iff.mp hset
    exact ⟨(setBy_of_setAll hd₁).size ▸ hmissing, d₁, hd₁, n, hn, hrest⟩
  · rintro ⟨hmissing, d₁, hd₁, n, hn, hrest⟩
    have hset := setSize_eq_ok_iff.mpr ⟨(setBy_of_setAll hd₁).size.trans hmissing, n, hn, rfl⟩
    refine ⟨d₁, hd₁, ?_⟩
    rw [readAll_size hplain, bind_eq_ok_iff]
    exact ⟨_, hset, hrest⟩

/-- An argument list that is understood begins with settings; there it ends, or a size follows. -/
theorem exists_settings_of_readAll {arguments : List String} (h : readAll arguments d = .ok d') :
    ∃ settings : List Setting, arguments = settings.flatMap Setting.arguments ∨
      ∃ size rest, size.toList.head? ≠ some '-' ∧
        arguments = settings.flatMap Setting.arguments ++ size :: rest := by
  fun_induction readAll arguments d with
  | case1 d => exact ⟨[], .inl rfl⟩
  | case2 argument d name hname => cases h
  | case3 argument d name value rest hname ih =>
    obtain ⟨d₁, -, hrest⟩ := bind_eq_ok_iff.mp h
    obtain ⟨settings, hsettings⟩ := ih d₁ hrest
    let s : Setting := ⟨name, argument, value, Argument.ofText_eq_option_iff.mp hname⟩
    rcases hsettings with rfl | ⟨size, rest', hplain, rfl⟩
    · exact ⟨s :: settings, .inl rfl⟩
    · exact ⟨s :: settings, .inr ⟨size, rest', hplain, rfl⟩⟩
  | case4 argument rest d hhelp => cases h
  | case5 argument rest d hunknown => cases h
  | case6 argument d rest hplain ih =>
    exact ⟨[], .inr ⟨argument, rest, Argument.ofText_eq_plain_iff.mp hplain, rfl⟩⟩

end Draft

/-! ## Command lines that are understood -/

variable {now : Nat} {o o' : Options} {arguments : List String} {l l' : CommandLine}
  {d : Draft}

/-- A seed that is missing counts as zero. -/
theorem getD_filter_ne_zero (seed : Option Nat) (now : Nat) :
    (seed.filter (· ≠ 0)).getD now = if seed.getD 0 = 0 then now else seed.getD 0 := by
  cases seed with
  | none => rfl
  | some n => by_cases hn : n = 0 <;> simp [Option.filter, hn]

theorem Options.ofArguments_eq_ok_iff : ofArguments now arguments = .ok o ↔
    ∃ d, Draft.readAll arguments {} = .ok d ∧ ∃ size, d.size = some size ∧
      o = ⟨if d.seed.getD 0 = 0 then now else d.seed.getD 0, d.budget, d.policy, size⟩ := by
  rw [ofArguments, bind_eq_ok_iff]
  refine exists_congr fun d => and_congr_right fun _ => ?_
  rw [← getD_filter_ne_zero]
  cases d.size with
  | none => exact iff_of_false nofun nofun
  | some size => simp [pure, Except.pure, eq_comm]

namespace CommandLine

theorem readAll_eq_ok_iff : Draft.readAll l.arguments {} = .ok d ↔
    ∃ d₁, ({} : Draft).setAll l.before = .ok d₁ ∧ ∃ n, MeansWord l.size n ∧
      { d₁ with size := some n }.setAll l.after = .ok d := by
  rw [arguments, Draft.readAll_upto_size_eq_ok_iff l.size_plain, and_iff_right rfl]
  simp only [Draft.readAll_settings_only]

/-- An argument list that is understood has the shape of a command line. -/
theorem exists_arguments_eq (h : Options.ofArguments now arguments = .ok o) :
    ∃ l : CommandLine, l.arguments = arguments := by
  obtain ⟨d, hread, n, hsize, -⟩ := Options.ofArguments_eq_ok_iff.mp h
  obtain ⟨before, rfl | ⟨size, rest, hplain, rfl⟩⟩ := Draft.exists_settings_of_readAll hread
  · -- without a size, the size would still be missing at the end
    rw [Draft.readAll_settings_only] at hread
    rw [(Draft.setBy_of_setAll hread).size] at hsize
    cases hsize
  · obtain ⟨-, d₁, -, m, -, hrest⟩ := (Draft.readAll_upto_size_eq_ok_iff hplain).mp hread
    obtain ⟨after, rfl | ⟨size', rest', hplain', rfl⟩⟩ := Draft.exists_settings_of_readAll hrest
    · exact ⟨⟨before, size, after, hplain⟩, rfl⟩
    · -- a second size is refused
      obtain ⟨hmissing, -⟩ := (Draft.readAll_upto_size_eq_ok_iff hplain').mp hrest
      cases hmissing

theorem readable_and_means_of_ofArguments (h : Options.ofArguments now l.arguments = .ok o) :
    l.Readable ∧ l.Means now o := by
  obtain ⟨d, hread, n, hsize, rfl⟩ := Options.ofArguments_eq_ok_iff.mp h
  obtain ⟨d₁, hbefore, m, hm, hafter⟩ := readAll_eq_ok_iff.mp hread
  have hbefore := Draft.setBy_of_setAll hbefore
  have hafter := Draft.setBy_of_setAll hafter
  obtain rfl : m = n := Option.some.inj (hafter.size.symm.trans hsize)
  -- the size stands between the settings, and changes nothing that they set
  have hrest : d₁.SetBy l.after { d with size := none } :=
    ⟨hafter.takes, hafter.seed, hafter.budget, hafter.policy, hbefore.size.symm⟩
  have hall := hbefore.trans hrest
  exact ⟨⟨hall.takes, m, hm⟩, ⟨_, hall.seed, rfl⟩, hall.budget, hall.policy, hm⟩

theorem Readable.exists_ofArguments (h : l.Readable) (now : Nat) :
    ∃ o, Options.ofArguments now l.arguments = .ok o := by
  obtain ⟨hbefore, hafter⟩ := List.forall_mem_append.mp h.settings
  obtain ⟨n, hn⟩ := h.size
  obtain ⟨d₁, hd₁⟩ := Draft.exists_setAll hbefore {}
  obtain ⟨d, hd⟩ := Draft.exists_setAll hafter { d₁ with size := some n }
  have hread := readAll_eq_ok_iff.mpr ⟨d₁, hd₁, n, hn, hd⟩
  exact ⟨_, Options.ofArguments_eq_ok_iff.mpr ⟨d, hread, n, (Draft.setBy_of_setAll hd).size, rfl⟩⟩

theorem Means.unique (h : l.Means now o) (h' : l.Means now o') : o = o' := by
  obtain ⟨n, hn, hseed⟩ := h.seed
  obtain ⟨n', hn', hseed'⟩ := h'.seed
  obtain rfl := hn.unique rightUnique_meansWord hn'
  have hbudget := h.budget.unique rightUnique_meansWord h'.budget
  have hpolicy := h.policy.unique rightUnique_meansPolicy h'.policy
  have hsize := rightUnique_meansWord h.size h'.size
  obtain ⟨seed, budget, policy, size⟩ := o
  obtain ⟨seed', budget', policy', size'⟩ := o'
  rw [Options.mk.injEq]
  exact ⟨hseed.trans hseed'.symm, hbudget, hpolicy, hsize⟩

theorem ofArguments_eq_ok_iff :
    Options.ofArguments now l.arguments = .ok o ↔ l.Readable ∧ l.Means now o := by
  refine ⟨readable_and_means_of_ofArguments, fun ⟨hread, hmeans⟩ => ?_⟩
  obtain ⟨o', ho'⟩ := hread.exists_ofArguments now
  rw [ho', hmeans.unique (readable_and_means_of_ofArguments ho').2]

namespace Rearranges

theorem symm (h : l.Rearranges l') : l'.Rearranges l :=
  ⟨fun name => (h.values name).symm, h.size.symm⟩

theorem readable (h : l.Rearranges l') (hl : l.Readable) : l'.Readable where
  settings s hs := by
    have hvalue : s.value ∈ l.values s.option :=
      h.values s.option ▸ Setting.mem_values.mpr ⟨s, hs, rfl, rfl⟩
    obtain ⟨s', hs', hoption, hvalue⟩ := Setting.mem_values.mp hvalue
    rw [← hoption, ← hvalue]
    exact hl.settings s' hs'
  size := h.size ▸ hl.size

theorem means (h : l.Rearranges l') (hl : l.Means now o) : l'.Means now o where
  seed := h.values .seed ▸ hl.seed
  budget := h.values .budget ▸ hl.budget
  policy := h.values .policy ▸ hl.policy
  size := h.size ▸ hl.size

theorem ofArguments (h : l.Rearranges l') (hl : Options.ofArguments now l.arguments = .ok o) :
    Options.ofArguments now l'.arguments = .ok o := by
  rw [ofArguments_eq_ok_iff] at hl ⊢
  exact ⟨h.readable hl.1, h.means hl.2⟩

end Rearranges

end CommandLine

/-- An argument list is understood exactly if it is a readable command line. It then means what the
settings of the run are, and so does every command line that gives the same values. -/
theorem Options.ofArguments_commandLine (now : Nat) :
    (∀ arguments, (∃ o, ofArguments now arguments = .ok o) ↔
      ∃ l : CommandLine, l.arguments = arguments ∧ l.Readable) ∧
    (∀ (l : CommandLine) (o : Options),
      ofArguments now l.arguments = .ok o ↔ l.Readable ∧ l.Means now o) ∧
    ∀ l l' : CommandLine, l.Rearranges l' → ∀ o : Options,
      ofArguments now l.arguments = .ok o ↔ ofArguments now l'.arguments = .ok o := by
  refine ⟨fun arguments => ⟨?_, ?_⟩, fun l o => CommandLine.ofArguments_eq_ok_iff,
    fun l l' h o => ⟨h.ofArguments, h.symm.ofArguments⟩⟩
  · rintro ⟨o, ho⟩
    obtain ⟨l, rfl⟩ := CommandLine.exists_arguments_eq ho
    exact ⟨l, rfl, (CommandLine.ofArguments_eq_ok_iff.mp ho).1⟩
  · rintro ⟨l, rfl, hl⟩
    exact hl.exists_ofArguments now

/-- A seed that a later zero replaces, a policy in capitals behind a blank, and a budget with a sign,
before and after the size. -/
theorem Options.ofArguments_commandLine_seed_zero : ∃ l l' : CommandLine, l.Rearranges l' ∧
    l.arguments = ["-s", "9", "-p", " FIFO", "--seed", "0", "30", "-m", "+12"] ∧
    l'.arguments = ["30", "--max_resident", "+12", "-s", "9", "-s", "0", "--policy", " FIFO"] ∧
    ofArguments 5 l.arguments = .ok ⟨5, 12, .fifo, 30⟩ ∧
    ofArguments 5 l'.arguments = .ok ⟨5, 12, .fifo, 30⟩ := by
  let l : CommandLine := .mk [.mk .seed "-s" "9", .mk .policy "-p" " FIFO", .mk .seed "--seed" "0"]
    "30" [.mk .budget "-m" "+12"]
  let l' : CommandLine := .mk [] "30" [.mk .budget "--max_resident" "+12", .mk .seed "-s" "9",
    .mk .seed "-s" "0", .mk .policy "--policy" " FIFO"]
  have hsame : l.Rearranges l' := ⟨fun name => by cases name <;> rfl, rfl⟩
  have hread : ofArguments 5 ["-s", "9", "-p", " FIFO", "--seed", "0", "30", "-m", "+12"] =
      .ok ⟨5, 12, .fifo, 30⟩ := by rfl
  exact ⟨l, l', hsame, rfl, rfl, hread, ((ofArguments_commandLine 5).2.2 l l' hsame _).mp hread⟩

end DemandPaging.Demo
