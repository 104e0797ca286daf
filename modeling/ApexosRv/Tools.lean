import ApexosRv.Fold

/-!
# The registered tools and their owners

`tools` and `plugins` hold the same fact in two directions. They stay in
agreement through a run exactly as long as no `pluginUp` leaves out a name that
is registered to its plugin then (`truthful_iff`): a second `pluginUp` replaces
what the plugin advertises but unregisters nothing, where `pluginDown` does. An
advertised tool stays available exactly as long as no `pluginDown` takes its
owner away (`available_iff`): a name has one owner, the last to announce it, and
no other live plugin takes its place.
-/

namespace ApexosRv

namespace SystemState

/-- Every registered tool is advertised by the live plugin that owns it. -/
def Truthful (s : SystemState) : Prop :=
  ∀ (name : String) (owner : PluginId), s.tools[name]? = some owner →
    ∃ specs, s.plugins[owner]? = some specs ∧ name ∈ specs.map ToolSpec.name

/-- An announcement advertises every name registered to its plugin then. -/
def Covers (s : SystemState) : Event → Prop
  | .pluginUp plugin specs =>
    ∀ name : String, s.tools[name]? = some plugin → name ∈ specs.map ToolSpec.name
  | _ => True

/-- An announcement registers what it advertises and nothing else. -/
theorem tools_pluginUp (s : SystemState) (plugin : PluginId) (specs : List ToolSpec)
    (name : String) :
    (s.apply (.pluginUp plugin specs)).tools[name]? =
      if name ∈ specs.map ToolSpec.name then some plugin else s.tools[name]? := by
  have folded : ∀ m : Map String PluginId,
      (specs.foldl (fun m spec => m.insert spec.name plugin) m)[name]? =
        if name ∈ specs.map ToolSpec.name then some plugin else m[name]? := by
    induction specs with
    | nil => simp
    | cons spec rest ih =>
      intro m
      rw [List.foldl_cons, ih, Std.ExtTreeMap.getElem?_insert]
      simp only [Std.LawfulEqOrd.compare_eq_iff_eq, List.map_cons, List.mem_cons,
        eq_comm (a := name)]
      by_cases here : spec.name = name <;> simp [here]
  exact folded s.tools

theorem plugins_pluginUp (s : SystemState) (plugin owner : PluginId) (specs : List ToolSpec) :
    (s.apply (.pluginUp plugin specs)).plugins[owner]? =
      if owner = plugin then some specs else s.plugins[owner]? := by
  simp only [apply, Std.ExtTreeMap.getElem?_insert, Std.LawfulEqOrd.compare_eq_iff_eq,
    eq_comm (a := owner)]

theorem tools_pluginDown {s : SystemState} {plugin owner : PluginId} {reason name : String} :
    (s.apply (.pluginDown plugin reason)).tools[name]? = some owner ↔
      s.tools[name]? = some owner ∧ owner ≠ plugin := by
  simp [apply, Option.filter_eq_some_iff]

theorem plugins_pluginDown {s : SystemState} {plugin owner : PluginId} {reason : String}
    (other : owner ≠ plugin) :
    (s.apply (.pluginDown plugin reason)).plugins[owner]? = s.plugins[owner]? := by
  simp [apply, Std.ExtTreeMap.getElem?_erase, other.symm]

/-- What an event needs to keep the two maps in agreement. -/
theorem truthful_apply {s : SystemState} (truthful : Truthful s) (event : Event) :
    Truthful (s.apply event) ↔ Covers s event := by
  cases event with
  | pluginUp plugin specs =>
    constructor
    · intro kept name registered
      by_contra left_out
      have still : (s.apply (.pluginUp plugin specs)).tools[name]? = some plugin := by
        rw [tools_pluginUp, if_neg left_out, registered]
      obtain ⟨specs', stored, advertised⟩ := kept name plugin still
      rw [plugins_pluginUp, if_pos rfl, Option.some.injEq] at stored
      subst stored
      exact left_out advertised
    · intro covers name owner registered
      rw [tools_pluginUp] at registered
      split at registered
      · rename_i advertised
        cases registered
        exact ⟨specs, by rw [plugins_pluginUp, if_pos rfl], advertised⟩
      · rename_i left_out
        have other : owner ≠ plugin := by
          rintro rfl
          exact left_out (covers name registered)
        obtain ⟨specs', stored, advertised⟩ := truthful name owner registered
        exact ⟨specs', by rw [plugins_pluginUp, if_neg other, stored], advertised⟩
  | pluginDown plugin reason =>
    refine iff_of_true (fun name owner registered => ?_) trivial
    obtain ⟨before, other⟩ := tools_pluginDown.mp registered
    obtain ⟨specs, stored, advertised⟩ := truthful name owner before
    exact ⟨specs, by rw [plugins_pluginDown other, stored], advertised⟩
  | _ => exact iff_of_true truthful trivial

/-- **No tool is ever stale in a run exactly when every announcement of it
covers what is registered to its plugin.** -/
theorem truthful_iff (events : List Event) :
    (∀ k, Truthful ((events.take k).foldl apply default)) ↔
      Runs.Within apply Covers default events := by
  refine Runs.invariant_iff (I := Truthful) (fun _ event truthful => truthful_apply truthful event)
    ?_ events
  intro name owner registered
  simp [default] at registered

/-- A live plugin that announces another tool keeps the first one registered. -/
theorem reannounced_tool_is_stale :
    ¬ Truthful ([Event.pluginUp ⟨"cerebro"⟩ [⟨"cerebro.recall", "", "\x7b\x7d"⟩],
      .pluginUp ⟨"cerebro"⟩ [⟨"cerebro.store", "", "\x7b\x7d"⟩]].foldl apply default) := by
  intro truthful
  obtain ⟨specs, stored, advertised⟩ := truthful "cerebro.recall" ⟨"cerebro"⟩ (by decide)
  rw [List.foldl_cons, List.foldl_cons, List.foldl_nil, plugins_pluginUp, if_pos rfl,
    Option.some.injEq] at stored
  subst stored
  exact absurd advertised (by decide)

/-! ## What is advertised stays available -/

/-- A name is registered, to a live plugin. -/
def Registered (s : SystemState) (name : String) : Prop :=
  ∃ owner, s.tools[name]? = some owner ∧ owner ∈ s.plugins

/-- A live plugin advertises a name. -/
def Advertises (s : SystemState) (plugin : PluginId) (name : String) : Prop :=
  ∃ specs, s.plugins[plugin]? = some specs ∧ name ∈ specs.map ToolSpec.name

/-- Every name that a live plugin advertises is registered, to a live plugin. -/
def Available (s : SystemState) : Prop :=
  ∀ plugin name, s.Advertises plugin name → s.Registered name

/-- A plugin that goes down owns no name that another live one advertises. -/
def Spares (s : SystemState) : Event → Prop
  | .pluginDown plugin _ =>
    ∀ other name, other ≠ plugin → s.Advertises other name → s.tools[name]? ≠ some plugin
  | _ => True

theorem mem_plugins_pluginUp {s : SystemState} {plugin owner : PluginId} {specs : List ToolSpec} :
    owner ∈ (s.apply (.pluginUp plugin specs)).plugins ↔ owner = plugin ∨ owner ∈ s.plugins := by
  simp only [apply, Std.ExtTreeMap.mem_insert, Std.LawfulEqOrd.compare_eq_iff_eq,
    eq_comm (a := owner)]

theorem mem_plugins_pluginDown {s : SystemState} {plugin owner : PluginId} {reason : String} :
    owner ∈ (s.apply (.pluginDown plugin reason)).plugins ↔ owner ≠ plugin ∧ owner ∈ s.plugins := by
  simp only [apply, Std.ExtTreeMap.mem_erase, ne_eq, Std.LawfulEqOrd.compare_eq_iff_eq,
    eq_comm (a := owner)]

theorem advertises_pluginDown {s : SystemState} {plugin owner : PluginId} {reason name : String} :
    (s.apply (.pluginDown plugin reason)).Advertises owner name ↔
      owner ≠ plugin ∧ s.Advertises owner name := by
  by_cases same : owner = plugin
  · subst same
    simp [Advertises, apply]
  · simp only [Advertises, plugins_pluginDown same, ne_eq, same, not_false_eq_true, true_and]

/-- A plugin that goes down takes the names it owns along, and no others. -/
theorem registered_pluginDown {s : SystemState} {plugin : PluginId} {reason name : String} :
    (s.apply (.pluginDown plugin reason)).Registered name ↔
      s.Registered name ∧ s.tools[name]? ≠ some plugin := by
  simp only [Registered, tools_pluginDown, mem_plugins_pluginDown]
  constructor
  · rintro ⟨owner, ⟨registered, other⟩, -, live⟩
    refine ⟨⟨owner, registered, live⟩, fun taken => other ?_⟩
    exact Option.some.inj (registered.symm.trans taken)
  · rintro ⟨⟨owner, registered, live⟩, spared⟩
    have other : owner ≠ plugin := by
      rintro rfl
      exact spared registered
    exact ⟨owner, ⟨registered, other⟩, other, live⟩

theorem available_pluginUp {s : SystemState} (available : Available s) (plugin : PluginId)
    (specs : List ToolSpec) : Available (s.apply (.pluginUp plugin specs)) := by
  rintro announcer name ⟨specs', stored, advertised⟩
  rw [plugins_pluginUp] at stored
  by_cases listed : name ∈ specs.map ToolSpec.name
  · exact ⟨plugin, by rw [tools_pluginUp, if_pos listed], mem_plugins_pluginUp.mpr (.inl rfl)⟩
  · split at stored
    · cases stored
      exact absurd advertised listed
    · obtain ⟨owner, registered, live⟩ := available announcer name ⟨specs', stored, advertised⟩
      exact ⟨owner, by rw [tools_pluginUp, if_neg listed, registered],
        mem_plugins_pluginUp.mpr (.inr live)⟩

/-- What an event needs to keep the advertised tools available. -/
theorem available_apply {s : SystemState} (available : Available s) (event : Event) :
    Available (s.apply event) ↔ Spares s event := by
  cases event with
  | pluginUp plugin specs => exact iff_of_true (available_pluginUp available plugin specs) trivial
  | pluginDown plugin reason =>
    constructor
    · intro kept other name apart advertised
      have still := kept other name (advertises_pluginDown.mpr ⟨apart, advertised⟩)
      exact (registered_pluginDown.mp still).2
    · intro spares other name advertised
      obtain ⟨apart, before⟩ := advertises_pluginDown.mp advertised
      exact registered_pluginDown.mpr ⟨available other name before, spares other name apart before⟩
  | _ => exact iff_of_true available trivial

theorem available_default : Available default := by
  rintro plugin name ⟨specs, stored, -⟩
  simp [default] at stored

/-- **No advertised tool is ever lost in a run exactly when no plugin that goes
down owns a name that another live plugin advertises; and where two live plugins
advertise a name and one of them goes down, the other keeps it available exactly
if the one that went is not its owner.** -/
theorem available_iff (events : List Event) :
    ((∀ k, Available ((events.take k).foldl apply default)) ↔
      Runs.Within apply Spares default events) ∧
    ∀ plugin other name reason, let s := events.foldl apply default
      Available s → s.Advertises plugin name → s.Advertises other name → other ≠ plugin →
        ((s.apply (.pluginDown plugin reason)).Registered name ↔
          s.tools[name]? ≠ some plugin) := by
  constructor
  · exact Runs.invariant_iff (I := Available)
      (fun _ event available => available_apply available event) available_default events
  · intro plugin other name reason s available _ advertised _
    rw [registered_pluginDown, and_iff_right (available other name advertised)]

/-- Two plugins announce the same tool and the second, its owner, goes down: the
first is live and still advertises it, and the name is gone. -/
theorem taken_over_tool_is_lost :
    ¬ Available ([Event.pluginUp ⟨"cerebro"⟩ [⟨"recall", "", "\x7b\x7d"⟩],
      .pluginUp ⟨"vault"⟩ [⟨"recall", "", "\x7b\x7d"⟩],
      .pluginDown ⟨"vault"⟩ "crash"].foldl apply default) := by
  intro available
  have still := available ⟨"cerebro"⟩ "recall"
    ⟨[⟨"recall", "", "\x7b\x7d"⟩], by decide, by decide⟩
  rw [List.foldl_cons, List.foldl_cons, List.foldl_cons, List.foldl_nil,
    registered_pluginDown] at still
  exact still.2 (by decide)

end SystemState

end ApexosRv
