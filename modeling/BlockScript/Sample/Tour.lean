import BlockScript.Cipher
import BlockScript.Json.Flaw
import BlockScript.Mlct.Compilation
import BlockScript.Session

/-!
# A tour of the project

Reports that show the surroundings: the files in the working directory, the program compiled, and a round trip
through the cipher.
-/

namespace BlockScript.Sample
open Act (ofExcept say sayAll space)

def shownBool (b : Bool) : Text := (Json.bool b).shown

def filesHere (w : Workspace) : List Text :=
  w.files.filterMap fun f => (Text.dropLead? (w.here.toText ++ "/") f.1).filter fun n => !n.contains '/'

def tourRecord : Json :=
  .obj [("project", .str "MLCT"), ("version", .str "1.0"),
    ("tools_demonstrated", .texts (texts ["read_file", "write_file", "terminal", "search", "edit"])),
    ("timestamp", .str "2026-01-17")]

def codeLine : Act Text := do
  let w ← space
  let path := Path.ofText "code.json"
  if !w.holds path then return "   Файл code.json не найден"
  let t ← Act.read path
  match Json.Flaw.find? t with
  | some f => return "   Ошибка парсинга JSON: " ++ f.message t
  | none =>
    let fields ← ofExcept ((Json.read? t).getD .null).record
    return "   Ключи в code.json: " ++ (Json.texts ((Table.names fields).take 5)).shown ++ "..."

/-- Show the surroundings and write a record. `language` is there if the compiler of the older language is. -/
def tour (language : Option (Except Fault Mlct.Language)) : Act Unit := do
  let w ← space
  let files := filesHere w
  let there (name : Text) : Text := "   " ++ name ++ " существует: " ++ shownBool (w.holds (.ofText name))
  sayAll ["=== Демонстрация инструментов GitHub Copilot ===", [],
   "1. Работа с файловой системой:", "   Текущая директория: " ++ w.here.toText, [],
   "2. Файлы в проекте:", "   Всего файлов: " ++ Text.ofNat files.length,
   "   Первые 5 файлов: " ++ (Json.texts (files.take 5)).shown, [],
   "3. Проверка существования файлов:", there "Config.py", there "Main.py", [],
   "4. Чтение конфигурации:"]
  match language with
  | none => say "   Ошибка импорта Config: No module named 'Config'"
  | some l =>
    let _ ← ofExcept l
    say ("   Путь к файлу из Config: " ++ Mlct.programFile)
    say ("   Отладка в консоли: " ++ shownBool true)
  sayAll [[], "5. Работа с JSON:"]
  say (← codeLine)
  sayAll [[], "6. Создание структуры данных:", "   Демо-данные созданы: " ++ tourRecord.shown, [],
   "7. Сохранение демо-файла:"]
  let path := w.here.child "demo_output.json"
  Act.write path tourRecord.render
  sayAll ["   Файл сохранен: " ++ path.toText, [], "=== Демонстрация завершена ==="]

def showProgram (language : Except Fault Mlct.Language) : Act Unit := do
  let _ ← ofExcept language
  let w ← space
  let path := Path.ofText Mlct.programFile
  say ("path_file: " ++ Mlct.programFile)
  say ("File exists: " ++ shownBool (w.holds path))
  let t ← Act.read path
  sayAll ["File content:", t.shown, [], "First 100 chars: " ++ t.take 100, [],
   "=== Демонстрация инструментов завершена ==="]

/-- Hide a text, find it again, and name the parts of the project. -/
def roundTrip : Act Unit := do
  let text : Text := "Тестовый текст для проверки инструментов"
  sayAll ["=== Тестирование работы инструментов ===", [], "1. Тестирование шифратора..."]
  let hidden ← Act.ofRun (Cipher.encrypt 42 text)
  say ("Зашифрованный текст: " ++ hidden)
  let found ← ofExcept (Cipher.decrypt hidden)
  say ("Расшифрованный текст: " ++ found)
  say (if found == text then "✓ Шифратор работает корректно" else "✗ Ошибка в шифраторе")
  sayAll [[], "2. Проверка структуры компилятора...", "Структура проекта MLCT:", "- Основные файлы: Main.py, Config.py",
   "- Компилятор: src/compiler/", "- Утилиты: src/utils/", "- Ресурсы: src/assets/", "- Инструменты: tools/",
   "✓ Структура компилятора определена", [], "=== Тест завершен ==="]

end BlockScript.Sample
