namespace PayloadCheck

/-- How many calls may be open at once while a text, a schema or a payload is gone through: of a
thousand, the first ten are those of the service itself. -/
def standardRoom : Nat := 990

end PayloadCheck
