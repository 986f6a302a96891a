import BlockScript.Json.Basic

/-!
# Files that come with the program

The list of blocks and the other spellings of signs used unless the user has their own.
-/

namespace BlockScript.Shipped

def blocks : Text := "[(minecraft:diamond_block) Событие игрока]
[(minecraft:gold_block) Событие мира]
[(minecraft:lapis_block) Функция]
[(minecraft:emerald_block) Блок цикла]

[(minecraft:cobblestone) Действие игрока]
[(minecraft:nether_brick) Игровое действие]
[(minecraft:bookshelf) Работа с массивами]
[(minecraft:purpur_block) Выбрать объект]
[(minecraft:lapis_ore) Вызвать функцию]
[(minecraft:iron_block) Установить переменную]

[(minecraft:planks) Если игрок]
[(minecraft:red_nether_brick) Если игра]
[(minecraft:brick_block) Если существо]
[(minecraft:obsidian) Если значение]
[(minecraft:end_stone) Иначе]
"

def aliases : Json :=
  .obj [("sign1", .obj [("Выбрать обьект", .str "Выбрать объект"), ("Массивы", .str "Работа с массивами"),
    ("Присв. переменную", .str "Установить переменную"), ("Если переменная", .str "Если значение")])]

end BlockScript.Shipped
