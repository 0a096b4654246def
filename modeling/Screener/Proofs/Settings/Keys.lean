import Screener.Settings

namespace Screener

namespace Yaml.Node

end Yaml.Node

namespace Settings

variable {σ α : Type}

@[simp]
theorem Key.of_name (name : String) (read? : Yaml.Node → Option α) (set : α → σ → σ) :
    (Key.of name read? set).name = name := rfl

def Key.part (name : String) (keys : List (Key σ)) (default : σ) (set : σ → Settings → Settings) :
    Key Settings :=
  ⟨name, fun node s => do .ok (set (← putMap name keys node default) s)⟩

@[simp]
theorem Key.part_name (name : String) (keys : List (Key σ)) (default : σ)
    (set : σ → Settings → Settings) : (Key.part name keys default set).name = name := rfl

section

variable {keys : List (Key σ)} {name : String} {R : Yaml.Node → α → Prop} {get : σ → α}

end

end Settings

end Screener
