import GameTable.Campaign.Content

/-!
# The starter campaign

What a new campaign starts with: rules for encounters and a few actions in them, a table of
weapons, and two character sheets.
-/

namespace GameTable.Starter

/-- A text of lines, each with its end. -/
def textOf (lines : List String) : String := String.join (lines.map (· ++ "\n"))

def manifestLines : List String :=
  ["# Reference rule manifest.",
   "#",
   "# Every command lists its parameters, prerequisites and the formula steps",
   "# of each phase. `game` steps run once, `targets` steps run once per",
   "# resolved target, `actor` steps run once at the end. A step's `event`",
   "# names the event its result maps to; `loop` overrides the loop name",
   "# (defaults to the command name).",
   "",
   "restrictions:",
   "  gm_commands:",
   "    - encounter_start",
   "    - encounter_end",
   "    - set",
   "    - spawn",
   "    - freeze",
   "    - unfreeze",
   "  adjudication:",
   "    commands:",
   "      - improvise",
   "",
   "commands:",
   "  encounter_start:",
   "    help: Start an encounter and ask every participant for initiative.",
   "    hint: Each participant should now roll initiative.",
   "    error: \"encounter start with: <target> and <target>\"",
   "    params:",
   "      - \x7b name: with, type: \"list<target>\" \x7d",
   "    game:",
   "      - \x7b name: start, formula: \"true\", event: LoopEvent \x7d",
   "      - \x7b name: order, formula: \"false\", event: LoopOrderAscendingEvent, loop: "
     ++ "encounter_start \x7d",
   "    targets:",
   "      - \x7b name: ask, formula: \"[target.id, 'initiative']\", event: AskIssuedEvent \x7d",
   "",
   "  encounter_end:",
   "    help: End the running encounter.",
   "    hint: The encounter is over. Rest, loot, or move on.",
   "    error: \"encounter end\"",
   "    game:",
   "      - \x7b name: stop, formula: \"false\", event: LoopEvent, loop: encounter_start \x7d",
   "",
   "  initiative:",
   "    help: Roll initiative and join the running encounter.",
   "    hint: Wait for the GM to call your turn.",
   "    error: \"initiative by: <actor>\"",
   "    prereq:",
   "      - name: in_encounter",
   "        formula: \"is_encounter_start_active\"",
   "        error: There is no encounter to join.",
   "    game:",
   "      - name: initiative",
   "        formula: \"roll('1d20') + mod(actor.stats.dex)\"",
   "        event: LoopOrderEvent",
   "        loop: encounter_start",
   "",
   "  end_turn:",
   "    help: Pass the turn to the next participant.",
   "    hint: The next participant is up.",
   "    error: \"end turn by: <actor>\"",
   "    turn: encounter_start",
   "    prereq:",
   "      - name: in_encounter",
   "        formula: \"is_encounter_start_active\"",
   "        error: There is no encounter running.",
   "    game:",
   "      - \x7b name: advance, formula: \"true\", event: LoopAdvancedEvent, loop: "
     ++ "encounter_start \x7d",
   "",
   "  grapple:",
   "    help: Grab a creature no more than one size larger than you.",
   "    hint: A grappled creature can spend its action to escape.",
   "    error: \"grapple by: <actor> to: <target>\"",
   "    turn: encounter_start",
   "    prereq:",
   "      - name: has_action",
   "        formula: \"actor.spent.actions < actor.resources.actions\"",
   "        error: You have no actions left this turn.",
   "      - name: size",
   "        formula: \"size_rank(target.size) <= size_rank(actor.size) + 1\"",
   "        error: That creature is too large to grapple.",
   "    targets:",
   "      - name: contest",
   "        formula: \"roll('1d20') + mod(actor.stats.str) >= roll('1d20') + "
     ++ "mod(target.stats.dex)\"",
   "        event: ContestResolvedEvent",
   "      - name: grappled",
   "        formula: \"steps.contest ? 'grappled' : ''\"",
   "        event: AddConditionEvent",
   "    actor:",
   "      - \x7b name: spend, formula: \"'actions'\", event: AddSpentEvent \x7d",
   "",
   "  escape:",
   "    help: Break free from a grapple.",
   "    error: \"escape by: <actor>\"",
   "    turn: encounter_start",
   "    prereq:",
   "      - name: grappled",
   "        formula: \"'grappled' in actor.conditions\"",
   "        error: You are not grappled.",
   "      - name: has_action",
   "        formula: \"actor.spent.actions < actor.resources.actions\"",
   "        error: You have no actions left this turn.",
   "    game:",
   "      - name: escaped",
   "        formula: \"roll('1d20') + max(mod(actor.stats.str), mod(actor.stats.dex)) >= 12\"",
   "        event: CheckEvent",
   "      - name: release",
   "        formula: \"steps.escaped ? 'grappled' : ''\"",
   "        event: RemoveConditionEvent",
   "    actor:",
   "      - \x7b name: spend, formula: \"'actions'\", event: AddSpentEvent \x7d",
   "",
   "  attack:",
   "    help: Make a weapon attack against one or more targets.",
   "    hint: Damage is tracked as spent hit points.",
   "    error: \"attack by: <actor> to: <target> weapon: <weapon>\"",
   "    turn: encounter_start",
   "    params:",
   "      - \x7b name: weapon, type: string \x7d",
   "      - \x7b name: dice, type: string \x7d",
   "    prereq:",
   "      - name: has_action",
   "        formula: \"actor.spent.actions < actor.resources.actions\"",
   "        error: You have no actions left this turn.",
   "    targets:",
   "      - name: hit",
   "        formula: \"roll('1d20') + mod(actor.stats.str) + action.bonus >= target.stats.ac\"",
   "        event: CheckEvent",
   "      - name: damage",
   "        formula: >-",
   "          steps.hit",
   "          ? \x7b'section': 'spent', 'key': 'hp',",
   "             'value': min(target.resources.hp,",
   "                          target.spent.hp + roll(action.dice == '' ? '1d4' : action.dice))\x7d",
   "          : null",
   "        event: AttributeChangedEvent",
   "    actor:",
   "      - \x7b name: spend, formula: \"'actions'\", event: AddSpentEvent \x7d",
   "",
   "  check:",
   "    help: Roll an ability check against a difficulty class.",
   "    error: \"check by: <actor> stat: <stat> dc: <number>\"",
   "    params:",
   "      - \x7b name: stat, type: string, required: true \x7d",
   "      - \x7b name: dc, type: int, required: true \x7d",
   "    game:",
   "      - name: check",
   "        formula: \"roll('1d20') + mod(actor.stats[command.stat]) >= command.dc\"",
   "        event: CheckEvent",
   "",
   "  improvise:",
   "    help: Attempt something the rules do not cover; the GM decides.",
   "    hint: The GM will allow or deny your idea.",
   "    error: \"improvise by: <actor> what: <description>\"",
   "    params:",
   "      - \x7b name: what, type: string, required: true \x7d",
   "    game:",
   "      - name: approval",
   "        formula: \"pending_adjudication.approved ? 'approved' : 'adjudicate'\"",
   "      - name: narrate",
   "        formula: \"actor.name + ' ' + command.what\"",
   "        event: HintEvent",
   "",
   "  set:",
   "    help: Overwrite one attribute of a creature.",
   "    error: \"set of: <target> section: <section> key: <key> value: <value>\"",
   "    params:",
   "      - \x7b name: section, type: string, required: true \x7d",
   "      - \x7b name: key, type: string, required: true \x7d",
   "      - \x7b name: value, type: string, required: true \x7d",
   "    prereq:",
   "      - name: named",
   "        formula: \"target.id != ''\"",
   "        error: Name the creature to change with of.",
   "    targets:",
   "      - name: change",
   "        formula: \"\x7b'section': command.section, 'key': command.key, 'value': "
     ++ "command.value\x7d\"",
   "        event: AttributeChangedEvent",
   "",
   "  spawn:",
   "    help: Add a new creature to the scene.",
   "    error: \"spawn id: <id> name: <name>\"",
   "    params:",
   "      - \x7b name: id, type: string, required: true \x7d",
   "      - \x7b name: name, type: string \x7d",
   "    prereq:",
   "      - name: unique",
   "        formula: \"!(command.id in entities)\"",
   "        error: A creature with that id already exists.",
   "    game:",
   "      - name: spawn",
   "        formula: >-",
   "          \x7b'id': command.id,",
   "           'name': has(command.name) ? command.name : command.id,",
   "           'resources': \x7b'actions': 1, 'reactions': 1\x7d\x7d",
   "        event: EntityAddedEvent",
   "",
   "  freeze:",
   "    help: Pause player input.",
   "    error: \"freeze\"",
   "    game:",
   "      - \x7b name: freeze, formula: \"\x7b'key': 'frozen', 'value': true\x7d\", event: "
     ++ "MetadataChangedEvent \x7d",
   "",
   "  unfreeze:",
   "    help: Resume player input.",
   "    error: \"unfreeze\"",
   "    game:",
   "      - \x7b name: unfreeze, formula: \"\x7b'key': 'frozen', 'value': null\x7d\", "
     ++ "event: MetadataChangedEvent \x7d"]

def weaponLines : List String :=
  ["# Weapon table consulted by the `weapon:` parameter.",
   "shortsword: \x7b dice: 1d6+3, type: piercing, bonus: 2 \x7d",
   "longsword: \x7b dice: 1d8+3, type: slashing, bonus: 2 \x7d",
   "dagger: \x7b dice: 1d4+3, type: piercing, bonus: 2 \x7d"]

def fighterLines : List String :=
  ["id: fighter",
   "name: Fighter",
   "types: [humanoid]",
   "classes:",
   "  size: medium",
   "  category: player",
   "stats:",
   "  str: 16",
   "  dex: 14",
   "  con: 14",
   "  ac: 16",
   "resources:",
   "  actions: 1",
   "  reactions: 1",
   "  hp: 30",
   "proficiencies:",
   "  athletics: 2",
   "inventory:",
   "  shortsword: 1"]

def goblinLines : List String :=
  ["id: goblin",
   "name: Goblin",
   "types: [humanoid, goblinoid]",
   "classes:",
   "  size: small",
   "  category: monster",
   "stats:",
   "  str: 8",
   "  dex: 14",
   "  con: 10",
   "  ac: 15",
   "resources:",
   "  actions: 1",
   "  reactions: 1",
   "  hp: 7"]

def manifestText : String := textOf manifestLines

def weaponsText : String := textOf weaponLines

/-- The character files, by their names. -/
def characterFiles : List (String × String) :=
  [("fighter.yaml", textOf fighterLines), ("goblin.yaml", textOf goblinLines)]

/-- The rules. -/
def manifest : Manifest :=
  match Manifest.ofYaml manifestText with
  | .ok (m, _) => m
  | .error _ => .empty

def weapons : Dict Value := (Compendium.weaponsOfYaml weaponsText).toOption.getD ∅

/-- The fighter and the goblin. -/
def entities : List Entity :=
  characterFiles.flatMap fun (_, text) => (Entity.sheetsOfYaml text).toOption.getD []

end GameTable.Starter
